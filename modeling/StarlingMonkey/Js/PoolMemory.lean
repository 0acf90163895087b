import Mathlib.Algebra.BigOperators.Group.List.Basic
import Mathlib.Algebra.Order.BigOperators.Group.List
import Mathlib.Data.List.Nodup
import StarlingMonkey.Js.HandlePool

/-!
# The memory of the pool of root handles

Which slots the pool holds, and that it holds each page and each box once.

* `Accounted` counts the pages: on the root stack, on the freelist, in the boxes of the active list
  and in the hands of a call that is not over.
* `Pooled` is the invariant of a pool with its active list.
* `Visited` are the slots the tracer comes by, `mem_trace` and `nodup_trace` say so.
* The specifications of `stackAlloc`, `newPrivate`, `privateAlloc` and `recycle` say how each
  changes what is visited.
-/

namespace Js

open HandlePool

/-! ### Sums over boxes -/

section Sums

variable {active : List ℕ} {b b' : ℕ} {f g : ℕ → ℕ}

private theorem sum_map_of_mem (hb : b ∈ active) :
    (active.map f).sum = f b + ((active.erase b).map f).sum :=
  (List.sum_map_erase f hb).symm

/-- A sum in which one term changes. -/
private theorem sum_map_change (hnodup : active.Nodup) (hb : b ∈ active)
    (hf : ∀ b', b' ≠ b → g b' = f b') :
    (active.map g).sum + f b = (active.map f).sum + g b := by
  have hrest : (active.erase b).map g = (active.erase b).map f :=
    List.map_congr_left fun b' hb' => hf b' fun heq => hnodup.not_mem_erase (heq ▸ hb')
  rw [sum_map_of_mem (f := g) hb, sum_map_of_mem (f := f) hb, hrest]
  omega

private theorem sum_map_same (hb : b ∉ active) (hf : ∀ b', b' ≠ b → g b' = f b') :
    (active.map g).sum = (active.map f).sum :=
  congrArg List.sum (List.map_congr_left fun b' hb' => hf b' fun heq => hb (heq ▸ hb'))

private theorem le_sum_map (hb : b ∈ active) : f b ≤ (active.map f).sum := by
  rw [sum_map_of_mem hb]
  omega

private theorem add_le_sum_map (hb : b ∈ active) (hb' : b' ∈ active) (hne : b' ≠ b) :
    f b + f b' ≤ (active.map f).sum := by
  rw [sum_map_of_mem hb]
  have := le_sum_map (f := f) ((List.mem_erase_of_ne hne).mpr hb')
  omega

end Sums

/-! ### Pages -/

/-- The pages of a box. -/
def PrivatePages.pages (box : PrivatePages) : List ℕ := box.fullPages ++ box.currentPage.toList

/-- The box holds the slot. -/
def PrivatePages.Holds (box : PrivatePages) (addr : SlotAddr) : Prop :=
  (addr.page ∈ box.fullPages ∧ addr.index < pageSize) ∨
    (box.currentPage = some addr.page ∧ addr.index < box.cursor)

theorem PrivatePages.Holds.mem_pages {box : PrivatePages} {addr : SlotAddr} (h : box.Holds addr) :
    addr.page ∈ box.pages := by
  rw [PrivatePages.pages, List.mem_append]
  rcases h with ⟨h, -⟩ | ⟨h, -⟩
  · exact .inl h
  · exact .inr (by simp [h])

namespace HandlePool

/-- Where a slot of the root stack is. -/
def stackAddr (p : HandlePool) (k : ℕ) : Option SlotAddr :=
  p.stack[k / pageSize]?.map (⟨·, k % pageSize⟩)

/-- The tracer comes by the slot. -/
def Visited (p : HandlePool) (active : List ℕ) (addr : SlotAddr) : Prop :=
  (∃ k < p.top, p.stackAddr k = some addr) ∨ ∃ b ∈ active, (p.boxes b).Holds addr

/-- How often a page is held. -/
def tally (p : HandlePool) (active : List ℕ) (page : ℕ) : ℕ :=
  p.stack.count page + p.freelist.count page +
    (active.map fun b => (p.boxes b).pages.count page).sum

/-- Every page is held once, `inHand` being held by a call that is not over. -/
structure Accounted (p : HandlePool) (active inHand : List ℕ) : Prop where
  single : ∀ page, p.tally active page + inHand.count page ≤ 1
  fresh : ∀ page, p.nextPage ≤ page → p.tally active page + inHand.count page = 0

/-- Every box is held once, and the active list leads through the boxes in use. -/
structure Boxed (p : HandlePool) (active : List ℕ) : Prop where
  nodup : (active ++ p.allocFreelist).Nodup
  fresh : ∀ b ∈ active ++ p.allocFreelist, b < p.nextBox
  chain : p.links.Chain none p.activeHead active
  clean : ∀ b ∈ p.allocFreelist, (p.boxes b).active = false ∧ (p.boxes b).pages = []
  few : p.allocFreelist.length ≤ maxFreeAllocs

/-- **The invariant** of a pool. -/
structure Pooled (p : HandlePool) (active : List ℕ) : Prop extends Boxed p active where
  accounted : Accounted p active []
  cursor : ∀ b ∈ active, (p.boxes b).active = true ∧ (p.boxes b).cursor ≤ pageSize ∧
    ((p.boxes b).currentPage = none → (p.boxes b).cursor = 0)
  top_le : p.top ≤ p.stack.length * pageSize

section Pages

variable {p p' : HandlePool} {active inHand : List ℕ} {b b' page k : ℕ} {addr : SlotAddr}

theorem stackAddr_eq_some :
    p.stackAddr k = some addr ↔
      p.stack[k / pageSize]? = some addr.page ∧ k % pageSize = addr.index := by
  obtain ⟨page, index⟩ := addr
  simp only [stackAddr, Option.map_eq_some_iff, SlotAddr.mk.injEq]
  constructor
  · rintro ⟨page, hpage, rfl, rfl⟩
    exact ⟨hpage, rfl⟩
  · rintro ⟨hpage, rfl⟩
    exact ⟨page, hpage, rfl, rfl⟩

theorem mem_stack_of_stackAddr (h : p.stackAddr k = some addr) : addr.page ∈ p.stack :=
  List.mem_of_getElem? (stackAddr_eq_some.mp h).1

theorem Accounted.stack_nodup (h : Accounted p active inHand) : p.stack.Nodup := by
  rw [List.nodup_iff_count_le_one]
  intro page
  have := h.single page
  rw [tally] at this
  omega

/-- Two heights of the stack are two slots. -/
theorem Accounted.stackAddr_inj (h : Accounted p active inHand) {k' : ℕ}
    (hk : p.stackAddr k = some addr) (hk' : p.stackAddr k' = some addr) : k = k' := by
  obtain ⟨hpage, hindex⟩ := stackAddr_eq_some.mp hk
  obtain ⟨hpage', hindex'⟩ := stackAddr_eq_some.mp hk'
  obtain ⟨hlt, -⟩ := List.getElem?_eq_some_iff.mp hpage
  have hdiv : k / pageSize = k' / pageSize :=
    (List.getElem?_inj hlt h.stack_nodup).mp (hpage.trans hpage'.symm)
  rw [← Nat.div_add_mod k pageSize, ← Nat.div_add_mod k' pageSize, hdiv, hindex, hindex']

/-- A page of a box is not on the stack. -/
theorem Accounted.not_mem_stack (h : Accounted p active inHand) (hb : b ∈ active)
    (hpage : page ∈ (p.boxes b).pages) : page ∉ p.stack := by
  intro hstack
  have hone := h.single page
  have hsum := le_sum_map (f := fun b => (p.boxes b).pages.count page) hb
  have := List.count_pos_iff.mpr hpage
  have := List.count_pos_iff.mpr hstack
  rw [tally] at hone
  omega

/-- A page of a box is not free. -/
theorem Accounted.not_mem_freelist (h : Accounted p active inHand) (hb : b ∈ active)
    (hpage : page ∈ (p.boxes b).pages) : page ∉ p.freelist := by
  intro hfree
  have hone := h.single page
  have hsum := le_sum_map (f := fun b => (p.boxes b).pages.count page) hb
  have := List.count_pos_iff.mpr hpage
  have := List.count_pos_iff.mpr hfree
  rw [tally] at hone
  omega

/-- A page is on the stack or free. -/
theorem Accounted.free_nodup (h : Accounted p active inHand) : (p.stack ++ p.freelist).Nodup := by
  rw [List.nodup_iff_count_le_one]
  intro page
  have := h.single page
  rw [tally] at this
  rw [List.count_append]
  omega

/-- A page belongs to one box. -/
theorem Accounted.box_inj (h : Accounted p active inHand) (hb : b ∈ active) (hb' : b' ∈ active)
    (hpage : page ∈ (p.boxes b).pages) (hpage' : page ∈ (p.boxes b').pages) : b' = b := by
  by_contra hne
  have hone := h.single page
  have hsum := add_le_sum_map (f := fun b => (p.boxes b).pages.count page) hb hb' hne
  have := List.count_pos_iff.mpr hpage
  have := List.count_pos_iff.mpr hpage'
  rw [tally] at hone
  omega

/-- A box has no page twice. -/
theorem Accounted.pages_nodup (h : Accounted p active inHand) (hb : b ∈ active) :
    (p.boxes b).pages.Nodup := by
  rw [List.nodup_iff_count_le_one]
  intro page
  have hone := h.single page
  have hsum := le_sum_map (f := fun b => (p.boxes b).pages.count page) hb
  rw [tally] at hone
  omega

/-- Whoever holds the same pages in all keeps the account. -/
theorem Accounted.of_tally {active' inHand' : List ℕ} (h : Accounted p active inHand)
    (htally : ∀ page, p'.tally active' page + inHand'.count page =
      p.tally active page + inHand.count page)
    (hnext : p.nextPage ≤ p'.nextPage) : Accounted p' active' inHand' := by
  constructor
  · intro page
    rw [htally]
    exact h.single page
  · intro page hpage
    rw [htally]
    exact h.fresh page (hnext.trans hpage)

/-- A page that is taken is in hand. -/
theorem Accounted.takePage (h : Accounted p active inHand) :
    Accounted p.takePage.1 active (p.takePage.2 :: inHand) := by
  rw [HandlePool.takePage]
  cases hfree : p.freelist with
  | cons page freelist =>
    refine h.of_tally (fun q => ?_) le_rfl
    simp only [tally, hfree, List.count_cons]
    omega
  | nil =>
    constructor
    · intro page
      have hone := h.single page
      have hfresh := h.fresh page
      simp only [tally, hfree, List.count_cons, List.count_nil, beq_iff_eq] at hone hfresh ⊢
      split_ifs with heq
      · have := hfresh heq.le
        omega
      · omega
    · intro page hpage
      have hfresh := h.fresh page (Nat.le_of_succ_le hpage)
      have hne : p.nextPage ≠ page := Nat.ne_of_lt hpage
      simpa [tally, hfree, List.count_cons, hne] using hfresh

/-- A page in hand can be returned. -/
theorem Accounted.returnPage (h : Accounted p active (page :: inHand)) :
    Accounted (p.returnPage page) active inHand := by
  refine h.of_tally (fun q => ?_) le_rfl
  simp only [tally, HandlePool.returnPage, List.count_cons]
  omega

theorem Accounted.returnPages {pages : List ℕ} (h : Accounted p active (pages ++ inHand)) :
    Accounted (pages.foldl HandlePool.returnPage p) active inHand := by
  induction pages generalizing p with
  | nil => exact h
  | cons page pages ih => exact ih h.returnPage

/-- Pages move between a box and the hand. -/
theorem Accounted.setBox {inHand' : List ℕ} {box : PrivatePages} (h : Accounted p active inHand)
    (hnodup : active.Nodup) (hb : b ∈ active)
    (hbox : ∀ page, box.pages.count page + inHand'.count page =
      (p.boxes b).pages.count page + inHand.count page) :
    Accounted (p.setBox b box) active inHand' := by
  refine h.of_tally (fun page => ?_) le_rfl
  have hchange := sum_map_change (f := fun b => (p.boxes b).pages.count page)
    (g := fun b' => (Function.update p.boxes b box b').pages.count page) hnodup hb
    fun b' hne => by rw [Function.update_of_ne hne]
  simp only [Function.update_self] at hchange
  have := hbox page
  simp only [tally, HandlePool.setBox]
  omega

end Pages

/-! ### Changes of one box -/

/-- Nothing changes but the pages of one box. -/
structure OneBox (p p' : HandlePool) (b : ℕ) : Prop where
  stack : p'.stack = p.stack
  top : p'.top = p.top
  levels : p'.levels = p.levels
  memory : p'.memory = p.memory
  allocFreelist : p'.allocFreelist = p.allocFreelist
  nextBox : p'.nextBox = p.nextBox
  links : p'.links = p.links
  activeHead : p'.activeHead = p.activeHead
  boxes : ∀ b', b' ≠ b → p'.boxes b' = p.boxes b'

section Boxes

variable {p p' p'' : HandlePool} {active inHand : List ℕ} {b b' : ℕ} {addr : SlotAddr} {slot : Slot}
  {box : PrivatePages}

theorem OneBox.refl (p : HandlePool) (b : ℕ) : OneBox p p b :=
  ⟨rfl, rfl, rfl, rfl, rfl, rfl, rfl, rfl, fun _ _ => rfl⟩

theorem OneBox.trans (h : OneBox p p' b) (h' : OneBox p' p'' b) : OneBox p p'' b where
  stack := h'.stack.trans h.stack
  top := h'.top.trans h.top
  levels := h'.levels.trans h.levels
  memory := h'.memory.trans h.memory
  allocFreelist := h'.allocFreelist.trans h.allocFreelist
  nextBox := h'.nextBox.trans h.nextBox
  links := h'.links.trans h.links
  activeHead := h'.activeHead.trans h.activeHead
  boxes := fun b' hne => (h'.boxes b' hne).trans (h.boxes b' hne)

theorem OneBox.setBox (p : HandlePool) (b : ℕ) (box : PrivatePages) : OneBox p (p.setBox b box) b :=
  ⟨rfl, rfl, rfl, rfl, rfl, rfl, rfl, rfl, fun _ hne => Function.update_of_ne hne ..⟩

theorem OneBox.takePage (p : HandlePool) (b : ℕ) : OneBox p p.takePage.1 b := by
  rw [HandlePool.takePage]
  split <;> exact ⟨rfl, rfl, rfl, rfl, rfl, rfl, rfl, rfl, fun _ _ => rfl⟩

@[simp] theorem takePage_boxes (p : HandlePool) : p.takePage.1.boxes = p.boxes := by
  rw [HandlePool.takePage]
  split <;> rfl

@[simp] theorem setBox_boxes_self : (p.setBox b box).boxes b = box := Function.update_self ..

/-- The links and the freelist of the boxes are in order whatever becomes of a box in use. -/
theorem Boxed.oneBox (h : Boxed p active) (hsame : OneBox p p' b) (hb : b ∈ active) :
    Boxed p' active where
  nodup := by rw [hsame.allocFreelist]; exact h.nodup
  fresh := by rw [hsame.allocFreelist, hsame.nextBox]; exact h.fresh
  chain := by rw [hsame.links, hsame.activeHead]; exact h.chain
  clean := by
    rw [hsame.allocFreelist]
    intro b' hb'
    have hne : b' ≠ b := by
      rintro rfl
      exact List.disjoint_of_nodup_append h.nodup hb hb'
    rw [hsame.boxes b' hne]
    exact h.clean b' hb'
  few := by rw [hsame.allocFreelist]; exact h.few

/-- A change of one box, of which only the account and the cursor have to be looked at. -/
theorem Pooled.oneBox (h : Pooled p active) (hsame : OneBox p p' b) (hb : b ∈ active)
    (haccounted : Accounted p' active []) (hactive : (p'.boxes b).active = (p.boxes b).active)
    (hcursor : (p'.boxes b).cursor ≤ pageSize)
    (hpage : (p'.boxes b).currentPage = none → (p'.boxes b).cursor = 0) : Pooled p' active where
  toBoxed := h.toBoxed.oneBox hsame hb
  accounted := haccounted
  cursor := by
    intro b' hb'
    by_cases hne : b' = b
    · subst hne
      exact ⟨hactive.trans (h.cursor b' hb').1, hcursor, hpage⟩
    · rw [hsame.boxes b' hne]
      exact h.cursor b' hb'
  top_le := by rw [hsame.top, hsame.stack]; exact h.top_le

theorem Pooled.active_nodup (h : Pooled p active) : active.Nodup := h.nodup.of_append_left

/-- The stack can be truncated. -/
theorem Pooled.truncate {top : ℕ} (h : Pooled p active) (htop : top ≤ p.top) (levels : List Level) :
    Pooled { p with top := top, levels := levels } active :=
  ⟨⟨h.nodup, h.fresh, h.chain, h.clean, h.few⟩, ⟨h.accounted.single, h.accounted.fresh⟩, h.cursor,
    htop.trans h.top_le⟩

/-- A box with a current page. -/
theorem ensurePage_spec (h : Pooled p active) (hb : b ∈ active) :
    OneBox p (p.ensurePage b) b ∧ Pooled (p.ensurePage b) active ∧
      ((p.ensurePage b).boxes b).currentPage.isSome = true ∧
      ∀ addr, ((p.ensurePage b).boxes b).Holds addr ↔ (p.boxes b).Holds addr := by
  obtain ⟨-, hcursor, hnone⟩ := h.cursor b hb
  by_cases hpage : (p.boxes b).currentPage = none
  · have hzero := hnone hpage
    have heq : p.ensurePage b = p.takePage.1.setBox b
        { p.takePage.1.boxes b with currentPage := some p.takePage.2 } := by
      rw [ensurePage, hpage]
      rfl
    rw [heq]
    have hsame : OneBox p (p.takePage.1.setBox b
        { p.takePage.1.boxes b with currentPage := some p.takePage.2 }) b :=
      (OneBox.takePage p b).trans (OneBox.setBox ..)
    refine ⟨hsame, h.oneBox hsame hb ?_ ?_ ?_ ?_, ?_, fun addr => ?_⟩
    · refine h.accounted.takePage.setBox h.active_nodup hb fun page => ?_
      simp [PrivatePages.pages, hpage, List.count_cons]
    · simp
    · simpa using hcursor
    · simp
    · simp
    · simp [PrivatePages.Holds, hpage, hzero]
  · have hsome := Option.isSome_iff_ne_none.mpr hpage
    rw [ensurePage, if_neg (by simp [hpage])]
    exact ⟨.refl p b, h, hsome, fun _ => .rfl⟩

/-- A box with a free slot. -/
theorem ensureRoom_spec (h : Pooled p active) (hb : b ∈ active)
    (hsome : (p.boxes b).currentPage.isSome = true) :
    ∃ p', p.ensureRoom b = .ok p' ∧ OneBox p p' b ∧ Pooled p' active ∧
      (p'.boxes b).currentPage.isSome = true ∧ (p'.boxes b).cursor < pageSize ∧
      ∀ addr, (p'.boxes b).Holds addr ↔ (p.boxes b).Holds addr := by
  obtain ⟨-, hcursor, -⟩ := h.cursor b hb
  rw [ensureRoom]
  split_ifs with hfull
  · obtain ⟨full, hpage⟩ := Option.isSome_iff_exists.mp hsome
    have hsame : OneBox p (p.takePage.1.setBox b ⟨some p.takePage.2, 0,
        (p.boxes b).fullPages ++ [full], (p.boxes b).active⟩) b :=
      (OneBox.takePage p b).trans (OneBox.setBox ..)
    refine ⟨_, by rw [hpage]; rfl, hsame, h.oneBox hsame hb ?_ ?_ ?_ ?_, ?_, ?_, fun addr => ?_⟩
    · refine h.accounted.takePage.setBox h.active_nodup hb fun page => ?_
      simp only [PrivatePages.pages, takePage_boxes, hpage, Option.toList_some, List.count_append,
        List.count_cons, List.count_nil]
      omega
    · simp
    · simp
    · simp
    · simp
    · simp [pageSize]
    · simp only [PrivatePages.Holds, setBox_boxes_self, hpage, hfull, List.mem_append,
        List.mem_singleton, Option.some.injEq, Nat.not_lt_zero, and_false, or_false]
      rw [or_and_right, @eq_comm _ full]
  · exact ⟨p, rfl, .refl p b, h, hsome, lt_of_le_of_ne hcursor hfull, fun _ => .rfl⟩

/-! ### Filling a slot of a box -/

/-- What is visited depends on the stack and on the boxes in use. -/
theorem visited_congr (hstack : p'.stack = p.stack) (htop : p'.top = p.top)
    (hboxes : ∀ b ∈ active, (p'.boxes b).Holds addr ↔ (p.boxes b).Holds addr) :
    p'.Visited active addr ↔ p.Visited active addr := by
  simp only [Visited, stackAddr, hstack, htop]
  refine or_congr .rfl (exists_congr fun b => and_congr_right fun hb => hboxes b hb)

/-- One slot of a box is filled. -/
structure BoxFilled (p p' : HandlePool) (b : ℕ) (slot : Slot) (addr : SlotAddr) : Prop where
  stack : p'.stack = p.stack
  top : p'.top = p.top
  levels : p'.levels = p.levels
  memory : p'.memory = Function.update p.memory addr slot
  boxes : ∀ b', b' ≠ b → p'.boxes b' = p.boxes b'
  holds : ∀ addr', (p'.boxes b).Holds addr' ↔ (p.boxes b).Holds addr' ∨ addr' = addr

private theorem lt_succ_iff_or {m n : ℕ} : m < n + 1 ↔ m < n ∨ m = n := by
  omega

/-- The slot at the cursor. -/
theorem fillSlot_spec (h : Pooled p active) (hb : b ∈ active)
    (hsome : (p.boxes b).currentPage.isSome = true) (hroom : (p.boxes b).cursor < pageSize)
    (slot : Slot) :
    ∃ p' addr, p.fillSlot b slot = .ok (p', addr) ∧ Pooled p' active ∧
      BoxFilled p p' b slot addr ∧ ¬ p.Visited active addr := by
  obtain ⟨page, hpage⟩ := Option.isSome_iff_exists.mp hsome
  have hmem : page ∈ (p.boxes b).pages := by simp [PrivatePages.pages, hpage]
  have hfull : page ∉ (p.boxes b).fullPages := by
    have hnodup := h.accounted.pages_nodup hb
    rw [PrivatePages.pages, hpage] at hnodup
    exact fun hfull => List.disjoint_of_nodup_append hnodup hfull (by simp)
  refine ⟨(p.write ⟨page, (p.boxes b).cursor⟩ slot).setBox b
    { p.boxes b with cursor := (p.boxes b).cursor + 1 }, ⟨page, (p.boxes b).cursor⟩, ?_, ?_, ?_, ?_⟩
  · simp [fillSlot, hpage, hroom]
  · have hsame : OneBox p (p.setBox b { p.boxes b with cursor := (p.boxes b).cursor + 1 }) b :=
      OneBox.setBox ..
    have hset := h.oneBox hsame hb (h.accounted.setBox h.active_nodup hb fun _ => rfl)
      (by simp) (by simpa using Nat.succ_le_of_lt hroom) (by simp [hpage])
    exact ⟨⟨hset.nodup, hset.fresh, hset.chain, hset.clean, hset.few⟩,
      ⟨hset.accounted.single, hset.accounted.fresh⟩, hset.cursor, hset.top_le⟩
  · refine ⟨rfl, rfl, rfl, rfl, fun _ hne => Function.update_of_ne hne .., fun addr => ?_⟩
    obtain ⟨q, i⟩ := addr
    simp only [PrivatePages.Holds, setBox_boxes_self, hpage, Option.some.injEq, lt_succ_iff_or,
      SlotAddr.mk.injEq, and_or_left, or_assoc]
    rw [@eq_comm _ page q]
  · rintro (⟨k, -, hk⟩ | ⟨b', hb', hheld⟩)
    · exact h.accounted.not_mem_stack hb hmem (mem_stack_of_stackAddr hk)
    · obtain rfl := h.accounted.box_inj hb hb' hmem hheld.mem_pages
      rcases hheld with ⟨hheld, -⟩ | ⟨-, hlt⟩
      · exact hfull hheld
      · exact Nat.lt_irrefl _ hlt

/-- **`PrivatePages::alloc`** fills a slot the tracer did not come by. -/
theorem privateAlloc_spec (h : Pooled p active) (hb : b ∈ active) (slot : Slot) :
    ∃ p' addr, p.privateAlloc b slot = .ok (p', addr) ∧ Pooled p' active ∧
      BoxFilled p p' b slot addr ∧ ¬ p.Visited active addr := by
  obtain ⟨hsame₁, h₁, hsome₁, hholds₁⟩ := ensurePage_spec h hb
  obtain ⟨p₂, heq₂, hsame₂, h₂, hsome₂, hroom, hholds₂⟩ := ensureRoom_spec h₁ hb hsome₁
  obtain ⟨p₃, addr, heq₃, h₃, hfilled, hnew⟩ := fillSlot_spec h₂ hb hsome₂ hroom slot
  have hsame := hsame₁.trans hsame₂
  have hholds (addr' : SlotAddr) : (p₂.boxes b).Holds addr' ↔ (p.boxes b).Holds addr' :=
    (hholds₂ addr').trans (hholds₁ addr')
  refine ⟨p₃, addr, ?_, h₃, ?_, ?_⟩
  · rw [privateAlloc, heq₂]
    exact heq₃
  · exact {
      stack := hfilled.stack.trans hsame.stack
      top := hfilled.top.trans hsame.top
      levels := hfilled.levels.trans hsame.levels
      memory := by rw [hfilled.memory, hsame.memory]
      boxes := fun b' hne => (hfilled.boxes b' hne).trans (hsame.boxes b' hne)
      holds := fun addr' => by rw [hfilled.holds, hholds] }
  · rwa [visited_congr hsame.stack hsame.top fun b' hb' => ?_] at hnew
    by_cases hne : b' = b
    · rw [hne]
      exact hholds addr
    · rw [hsame.boxes b' hne]

/-! ### Filling a slot of the stack -/

/-- A slot on top of the stack is filled. -/
structure StackFilled (p p' : HandlePool) (slot : Slot) (addr : SlotAddr) : Prop where
  top : p'.top = p.top + 1
  levels : p'.levels = p.levels
  memory : p'.memory = Function.update p.memory addr slot
  boxes : p'.boxes = p.boxes
  kept : ∀ k < p.top, p'.stackAddr k = p.stackAddr k
  pushed : p'.stackAddr p.top = some addr

/-- The stack has a page for its next slot. -/
private theorem ensureStack_spec (h : Pooled p active) :
    ∃ p', (if p.top / pageSize = p.stack.length then p.growStack else p) = p' ∧
      Pooled p' active ∧ p.top / pageSize < p'.stack.length ∧ p.stack <+: p'.stack ∧
      p'.top = p.top ∧ p'.levels = p.levels ∧ p'.memory = p.memory ∧ p'.boxes = p.boxes := by
  have htop : p.top / pageSize ≤ p.stack.length :=
    Nat.div_le_of_le_mul (by rw [Nat.mul_comm]; exact h.top_le)
  split_ifs with hfull
  · refine ⟨_, rfl, ⟨⟨h.nodup, h.fresh, h.chain, h.clean, h.few⟩, ?_, h.cursor, ?_⟩, ?_,
      List.prefix_append .., rfl, rfl, rfl, rfl⟩
    · constructor
      · intro page
        have hone := h.accounted.single page
        have hfresh := h.accounted.fresh page
        simp only [tally, growStack, List.count_append, List.count_singleton,
          beq_iff_eq] at hone hfresh ⊢
        split_ifs with heq
        · have := hfresh heq.le
          omega
        · omega
      · intro page hpage
        have hfresh := h.accounted.fresh page (Nat.le_of_succ_le hpage)
        have hne : p.nextPage ≠ page := Nat.ne_of_lt hpage
        simpa [tally, growStack, List.count_singleton, hne] using hfresh
    · have := h.top_le
      simp only [growStack, List.length_append, List.length_singleton, Nat.add_mul]
      omega
    · simp only [growStack, List.length_append, List.length_singleton]
      omega
  · exact ⟨p, rfl, h, lt_of_le_of_ne htop hfull, List.prefix_rfl, rfl, rfl, rfl, rfl⟩

/-- **`stack_alloc`** fills a slot the tracer did not come by. -/
theorem stackAlloc_spec (h : Pooled p active) (slot : Slot) :
    ∃ p' addr, p.stackAlloc slot = .ok (p', addr) ∧ Pooled p' active ∧
      StackFilled p p' slot addr ∧ ¬ p.Visited active addr := by
  obtain ⟨p₁, heq, h₁, hlt, hprefix, htop, hlevels, hmemory, hboxes⟩ := ensureStack_spec h
  obtain ⟨page, hpage⟩ : ∃ page, p₁.stack[p.top / pageSize]? = some page :=
    ⟨_, List.getElem?_eq_getElem hlt⟩
  have hkept (k : ℕ) (hk : k < p.top) : p₁.stackAddr k = p.stackAddr k := by
    have hk' : k / pageSize < p.stack.length := by
      have := h.top_le
      exact Nat.div_lt_of_lt_mul (by rw [Nat.mul_comm]; omega)
    rw [stackAddr, stackAddr, List.getElem?_eq_getElem hk',
      List.prefix_iff_getElem?.mp hprefix _ hk']
  have hpushed : p₁.stackAddr p.top = some ⟨page, p.top % pageSize⟩ := by
    rw [stackAddr, hpage]
    rfl
  refine ⟨{ p₁.write ⟨page, p.top % pageSize⟩ slot with top := p.top + 1 },
    ⟨page, p.top % pageSize⟩, ?_, ?_, ?_, ?_⟩
  · simp only [stackAlloc, heq, hpage, Outcome.expect_some, Outcome.ok_bind, htop]
    rfl
  · refine ⟨⟨h₁.nodup, h₁.fresh, h₁.chain, h₁.clean, h₁.few⟩,
      ⟨h₁.accounted.single, h₁.accounted.fresh⟩, h₁.cursor, ?_⟩
    exact (Nat.div_lt_iff_lt_mul (by simp [pageSize])).mp hlt
  · exact ⟨rfl, hlevels, by rw [← hmemory]; rfl, hboxes, hkept, hpushed⟩
  · rintro (⟨k, hk, haddr⟩ | ⟨b, hb, hheld⟩)
    · rw [← hkept k hk] at haddr
      exact Nat.ne_of_lt hk (h₁.accounted.stackAddr_inj haddr hpushed)
    · rw [← hboxes] at hheld
      exact h₁.accounted.not_mem_stack hb hheld.mem_pages (mem_stack_of_stackAddr hpushed)

/-! ### Boxes -/

/-- Nothing changes but one box, the lists of boxes and the freelist of pages. -/
structure SameSlots (p p' : HandlePool) (b : ℕ) : Prop where
  stack : p'.stack = p.stack
  top : p'.top = p.top
  levels : p'.levels = p.levels
  memory : p'.memory = p.memory
  boxes : ∀ b', b' ≠ b → p'.boxes b' = p.boxes b'

/-- A box that is not in use. -/
theorem takeAlloc_spec (h : Pooled p active) :
    ∃ p' b, p.takeAlloc = (p', b) ∧ SameSlots p p' b ∧ p'.freelist = p.freelist ∧
      p'.nextPage = p.nextPage ∧ p'.links = p.links ∧ p'.activeHead = p.activeHead ∧
      (p'.boxes b).active = false ∧ (p'.boxes b).pages = [] ∧
      (b :: active ++ p'.allocFreelist).Nodup ∧
      (∀ c ∈ b :: active ++ p'.allocFreelist, c < p'.nextBox) ∧
      p'.allocFreelist ⊆ p.allocFreelist ∧ p'.allocFreelist.length ≤ maxFreeAllocs := by
  have hnodup := h.nodup
  have hfresh := h.fresh
  have hfew := h.few
  rw [takeAlloc]
  cases hfree : p.allocFreelist with
  | cons b rest =>
    rw [hfree] at hnodup hfresh hfew
    obtain ⟨hactive, hpages⟩ := h.clean b (by simp [hfree])
    refine ⟨_, b, rfl, ⟨rfl, rfl, rfl, rfl, fun _ _ => rfl⟩, rfl, rfl, rfl, rfl, hactive, hpages,
      List.perm_middle.nodup_iff.mp hnodup, fun c hc => hfresh c ?_, List.subset_cons_self .., ?_⟩
    · exact List.perm_middle.mem_iff.mpr hc
    · exact (Nat.le_succ _).trans hfew
  | nil =>
    rw [hfree, List.append_nil] at hnodup hfresh
    refine ⟨_, p.nextBox, rfl, ⟨rfl, rfl, rfl, rfl, fun _ hne => Function.update_of_ne hne ..⟩, rfl,
      rfl, rfl, rfl, ?_, ?_, ?_, ?_, ?_, ?_⟩
    · simp
    · simp [PrivatePages.pages]
    · simp only [setBox, hfree, List.append_nil]
      exact List.nodup_cons.mpr ⟨fun hb => Nat.lt_irrefl _ (hfresh _ hb), hnodup⟩
    · intro c hc
      simp only [setBox, hfree, List.append_nil, List.mem_cons] at hc
      rcases hc with rfl | hc
      · exact Nat.lt_succ_self _
      · exact (hfresh c hc).trans (Nat.lt_succ_self _)
    · simp [setBox, hfree]
    · simp [setBox, hfree]

/-- **`PrivatePages::new`** makes a box without slots. -/
theorem newPrivate_spec (h : Pooled p active) :
    ∃ p' b, p.newPrivate = .ok (p', b) ∧ b ∉ active ∧ Pooled p' (b :: active) ∧ SameSlots p p' b ∧
      ∀ addr, ¬ (p'.boxes b).Holds addr := by
  obtain ⟨p₁, b, heq, hsame, hfreelist, hnextPage, hlinks, hhead, hactive, hpages, hnodup, hfresh,
    hsub, hfew⟩ := takeAlloc_spec h
  have hpages' := List.append_eq_nil_iff.mp hpages
  have hfull : (p₁.boxes b).fullPages = [] := hpages'.1
  have hnone : (p₁.boxes b).currentPage = none := by
    simpa using hpages'.2
  have hb : b ∉ active ∧ b ∉ p₁.allocFreelist := by
    simpa [not_or] using (List.nodup_cons.mp hnodup).1
  let p₂ := (p₁.setBox b { p₁.boxes b with cursor := 0, active := true }).register b
  have hself : p₂.boxes b = { p₁.boxes b with cursor := 0, active := true } := setBox_boxes_self
  have hother (c : ℕ) (hne : c ≠ b) : p₂.boxes c = p.boxes c :=
    (Function.update_of_ne hne ..).trans (hsame.boxes c hne)
  refine ⟨p₂, b, ?_, hb.1, ⟨⟨hnodup, hfresh, ?_, ?_, hfew⟩, ?_, ?_, ?_⟩,
    ⟨hsame.stack, hsame.top, hsame.levels, hsame.memory, hother⟩, ?_⟩
  · simp [newPrivate, heq, hactive, hfull, hnone, p₂]
  · show (p₁.links.pushFront p₁.activeHead b).Chain none (some b) (b :: active)
    rw [hlinks, hhead]
    exact h.chain.pushFront h.active_nodup hb.1
  · intro c hc
    rw [hother c fun heq => hb.2 (heq ▸ hc)]
    exact h.clean c (hsub hc)
  · refine h.accounted.of_tally (fun page => ?_) hnextPage.ge
    have hsum := sum_map_same (f := fun c => (p.boxes c).pages.count page)
      (g := fun c => (p₂.boxes c).pages.count page) hb.1 fun c hne => by rw [hother c hne]
    have hzero : (p₂.boxes b).pages.count page = 0 := by
      rw [hself]
      exact congrArg (List.count page) hpages
    have hstack : p₂.stack = p.stack := hsame.stack
    have hfree : p₂.freelist = p.freelist := hfreelist
    rw [tally, tally, List.map_cons, List.sum_cons, hsum, hzero, hstack, hfree, Nat.zero_add]
  · intro c hc
    rcases List.mem_cons.mp hc with rfl | hc
    · rw [hself]
      exact ⟨rfl, Nat.zero_le _, fun _ => rfl⟩
    · rw [hother c fun heq => hb.1 (heq ▸ hc)]
      exact h.cursor c hc
  · show p₁.top ≤ p₁.stack.length * pageSize
    rw [hsame.top, hsame.stack]
    exact h.top_le
  · rw [hself]
    simp [PrivatePages.Holds, hfull, hnone]

/-- Returning pages changes the freelist only. -/
private theorem foldl_returnPage (pages : List ℕ) (p : HandlePool) :
    ∃ freelist, pages.foldl returnPage p = { p with freelist := freelist } := by
  induction pages generalizing p with
  | nil => exact ⟨p.freelist, rfl⟩
  | cons page pages ih => exact ih (p.returnPage page)

/-- A box that is released, and its pages with it. -/
private theorem release_spec (h : Pooled p active) (hb : b ∈ active) :
    Pooled (p.release b) (active.erase b) ∧ SameSlots p (p.release b) b ∧
      (p.release b).allocFreelist = p.allocFreelist ∧ (p.release b).nextBox = p.nextBox ∧
      ((p.release b).boxes b).active = false ∧ ((p.release b).boxes b).pages = [] := by
  have hactive := (h.cursor b hb).1
  let box : PrivatePages := ⟨none, (p.boxes b).cursor, [], false⟩
  let p₁ := (p.setBox b box).unregister b
  have hbox : p₁.boxes b = box := setBox_boxes_self
  have hne (c : ℕ) (hne : c ≠ b) : p₁.boxes c = p.boxes c := Function.update_of_ne hne ..
  have hinHand : Accounted p₁ (active.erase b)
      ((p.boxes b).currentPage.toList ++ (p.boxes b).fullPages ++ []) := by
    have hset : Accounted (p.setBox b box) active
        ((p.boxes b).currentPage.toList ++ (p.boxes b).fullPages ++ []) := by
      refine h.accounted.setBox h.active_nodup hb fun page => ?_
      simp only [box, PrivatePages.pages, Option.toList_none, List.append_nil, List.count_nil,
        List.count_append]
      omega
    refine hset.of_tally (fun page => ?_) le_rfl
    rw [tally, tally, sum_map_of_mem (f := fun c => ((p.setBox b box).boxes c).pages.count page) hb,
      setBox_boxes_self]
    simp [p₁, unregister, box, PrivatePages.pages]
  obtain ⟨freelist, hfree⟩ :=
    foldl_returnPage ((p.boxes b).currentPage.toList ++ (p.boxes b).fullPages) p₁
  have heq : p.release b = { p₁ with freelist := freelist } := by
    rw [release, if_neg (by simp [hactive])]
    exact hfree
  have haccounted := hinHand.returnPages
  rw [hfree] at haccounted
  rw [heq]
  have hsub : (active.erase b ++ p.allocFreelist).Sublist (active ++ p.allocFreelist) :=
    (List.erase_sublist ..).append (.refl _)
  refine ⟨⟨⟨h.nodup.sublist hsub, fun c hc => h.fresh c (hsub.subset hc), ?_, fun c hc => ?_,
    h.few⟩, haccounted, fun c hc => ?_, h.top_le⟩, ⟨rfl, rfl, rfl, rfl, hne⟩, rfl, rfl, ?_, ?_⟩
  · exact h.chain.remove h.active_nodup hb
  · have hcb : c ≠ b := by
      rintro rfl
      exact List.disjoint_of_nodup_append h.nodup hb hc
    show (p₁.boxes c).active = false ∧ (p₁.boxes c).pages = []
    rw [hne c hcb]
    exact h.clean c hc
  · have hcb : c ≠ b := fun heq => h.active_nodup.not_mem_erase (heq ▸ hc)
    show (p₁.boxes c).active = true ∧ (p₁.boxes c).cursor ≤ pageSize ∧
      ((p₁.boxes c).currentPage = none → (p₁.boxes c).cursor = 0)
    rw [hne c hcb]
    exact h.cursor c (List.mem_of_mem_erase hc)
  · show (p₁.boxes b).active = false
    rw [hbox]
  · show (p₁.boxes b).pages = []
    rw [hbox]
    rfl

/-- **`PrivatePages::recycle`** takes a box out of the active list. -/
theorem recycle_spec (h : Pooled p active) (hb : b ∈ active) :
    ∃ p', p.recycle b = .ok p' ∧ Pooled p' (active.erase b) ∧ SameSlots p p' b := by
  obtain ⟨h₁, hsame, hfree, hnextBox, hactive, hpages⟩ := release_spec h hb
  rw [recycle, returnAlloc, hactive]
  refine ⟨_, rfl, ?_, ?_⟩
  · split_ifs with hfew
    · have hperm : (active.erase b ++ b :: p.allocFreelist).Perm (active ++ p.allocFreelist) :=
        List.perm_middle.trans ((List.perm_cons_erase hb).symm.append_right _)
      refine ⟨⟨?_, ?_, h₁.chain, ?_, hfew⟩, ⟨h₁.accounted.single, h₁.accounted.fresh⟩, h₁.cursor,
        h₁.top_le⟩
      · show (active.erase b ++ b :: (p.release b).allocFreelist).Nodup
        rw [hfree]
        exact hperm.nodup_iff.mpr h.nodup
      · show ∀ c ∈ active.erase b ++ b :: (p.release b).allocFreelist, c < (p.release b).nextBox
        rw [hfree, hnextBox]
        exact fun c hc => h.fresh c (hperm.mem_iff.mp hc)
      · intro c hc
        rcases List.mem_cons.mp hc with rfl | hc
        · exact ⟨hactive, hpages⟩
        · exact h₁.clean c hc
    · rw [release, if_pos (by simp [hactive])]
      exact h₁
  · split_ifs with hfew
    · exact ⟨hsame.stack, hsame.top, hsame.levels, hsame.memory, hsame.boxes⟩
    · rw [release, if_pos (by simp [hactive])]
      exact hsame

/-! ### Tracing -/

theorem mem_tracePage {v : Visit} {page count : ℕ} :
    v ∈ p.tracePage page count ↔
      v.1.page = page ∧ v.1.index < count ∧ v.2 = p.memory v.1 := by
  obtain ⟨⟨q, i⟩, slot⟩ := v
  simp only [tracePage, List.mem_map, List.mem_range, Prod.mk.injEq, SlotAddr.mk.injEq]
  constructor
  · rintro ⟨i, hi, ⟨rfl, rfl⟩, rfl⟩
    exact ⟨rfl, hi, rfl⟩
  · rintro ⟨rfl, hi, rfl⟩
    exact ⟨i, hi, ⟨rfl, rfl⟩, rfl⟩

/-- The pages of the stack the tracer comes by, and how many slots of each it looks at. -/
def stackExtents (p : HandlePool) : ℕ → List ℕ → List (ℕ × ℕ)
  | _, [] => []
  | index, page :: pages =>
    if p.top ≤ index * pageSize then []
    else (page, min (p.top - index * pageSize) pageSize) :: p.stackExtents (index + 1) pages

/-- The pages of a box the tracer comes by, and how many slots of each it looks at. -/
def boxExtents (box : PrivatePages) : List (ℕ × ℕ) :=
  box.fullPages.map (·, pageSize) ++ box.currentPage.toList.map (·, box.cursor)

/-- Look at the first slots of some pages. -/
def tracePages (p : HandlePool) (extents : List (ℕ × ℕ)) : List Visit :=
  extents.flatMap fun x => p.tracePage x.1 x.2

theorem traceStack_eq (index : ℕ) (pages : List ℕ) :
    p.traceStack index pages = p.tracePages (p.stackExtents index pages) := by
  induction pages generalizing index with
  | nil => rfl
  | cons page pages ih =>
    rw [traceStack, stackExtents]
    split_ifs
    · rfl
    · rw [ih]
      rfl

theorem tracePrivate_eq (b : ℕ) : p.tracePrivate b = p.tracePages (boxExtents (p.boxes b)) := by
  simp [tracePrivate, tracePages, boxExtents, List.flatMap_map]

theorem map_fst_stackExtents (index : ℕ) (pages : List ℕ) :
    (p.stackExtents index pages).map Prod.fst <+: pages := by
  induction pages generalizing index with
  | nil => exact List.nil_prefix
  | cons page pages ih =>
    rw [stackExtents]
    split_ifs
    · exact List.nil_prefix
    · rw [List.map_cons, List.prefix_cons_inj]
      exact ih (index + 1)

theorem map_fst_boxExtents (box : PrivatePages) : (boxExtents box).map Prod.fst = box.pages := by
  simp [boxExtents, PrivatePages.pages, Function.comp_def]

theorem mem_tracePages {extents : List (ℕ × ℕ)} {v : Visit} :
    v ∈ p.tracePages extents ↔
      (∃ x ∈ extents, v.1.page = x.1 ∧ v.1.index < x.2) ∧ v.2 = p.memory v.1 := by
  simp only [tracePages, List.mem_flatMap, mem_tracePage]
  constructor
  · rintro ⟨x, hx, hpage, hindex, hslot⟩
    exact ⟨⟨x, hx, hpage, hindex⟩, hslot⟩
  · rintro ⟨⟨x, hx, hpage, hindex⟩, hslot⟩
    exact ⟨x, hx, hpage, hindex, hslot⟩

theorem mem_stackExtents {index : ℕ} {pages : List ℕ} {x : ℕ × ℕ} :
    x ∈ p.stackExtents index pages ↔ ∃ j, pages[j]? = some x.1 ∧ (index + j) * pageSize < p.top ∧
      x.2 = min (p.top - (index + j) * pageSize) pageSize := by
  induction pages generalizing index with
  | nil => simp [stackExtents]
  | cons page pages ih =>
    rw [stackExtents]
    split_ifs with htop
    · refine iff_of_false List.not_mem_nil ?_
      rintro ⟨j, -, hj, -⟩
      have := Nat.mul_le_mul_right pageSize (Nat.le_add_right index j)
      omega
    · rw [List.mem_cons, ih]
      constructor
      · rintro (rfl | ⟨j, hpage, hj, hcount⟩)
        · exact ⟨0, rfl, Nat.lt_of_not_le htop, rfl⟩
        · rw [Nat.add_right_comm, Nat.add_assoc] at hj hcount
          exact ⟨j + 1, hpage, hj, hcount⟩
      · rintro ⟨j, hpage, hj, hcount⟩
        cases j with
        | zero => exact .inl (Prod.ext (Option.some.inj hpage).symm hcount)
        | succ j =>
          rw [← Nat.add_assoc, Nat.add_right_comm] at hj hcount
          exact .inr ⟨j, hpage, hj, hcount⟩

/-- The slots of the stack that are looked at are those below its top. -/
theorem exists_stackExtents_iff :
    (∃ x ∈ p.stackExtents 0 p.stack, addr.page = x.1 ∧ addr.index < x.2) ↔
      ∃ k < p.top, p.stackAddr k = some addr := by
  simp only [mem_stackExtents, stackAddr_eq_some, Nat.zero_add]
  constructor
  · rintro ⟨x, ⟨j, hpage, hj, hcount⟩, heq, hindex⟩
    rw [hcount, lt_min_iff] at hindex
    refine ⟨j * pageSize + addr.index, by omega, ?_, ?_⟩
    · rw [heq, ← hpage, Nat.mul_comm, Nat.mul_add_div (by simp [pageSize]),
        Nat.div_eq_of_lt hindex.2, Nat.add_zero]
    · rw [Nat.mul_comm, Nat.mul_add_mod, Nat.mod_eq_of_lt hindex.2]
  · rintro ⟨k, hk, hpage, hindex⟩
    have hdiv := Nat.div_add_mod k pageSize
    have hmod : k % pageSize < pageSize := Nat.mod_lt _ (by simp [pageSize])
    rw [Nat.mul_comm] at hdiv
    exact ⟨(addr.page, _), ⟨k / pageSize, hpage, by omega, rfl⟩, rfl, lt_min (by omega) (by omega)⟩

theorem exists_boxExtents_iff {box : PrivatePages} :
    (∃ x ∈ boxExtents box, addr.page = x.1 ∧ addr.index < x.2) ↔ box.Holds addr := by
  obtain ⟨page, index⟩ := addr
  simp only [boxExtents, List.mem_append, List.mem_map, Option.mem_toList, PrivatePages.Holds]
  constructor
  · rintro ⟨x, ⟨q, hq, rfl⟩ | ⟨q, hq, rfl⟩, rfl, hindex⟩
    · exact .inl ⟨hq, hindex⟩
    · exact .inr ⟨hq, hindex⟩
  · rintro (⟨hpage, hindex⟩ | ⟨hpage, hindex⟩)
    · exact ⟨_, .inl ⟨page, hpage, rfl⟩, rfl, hindex⟩
    · exact ⟨_, .inr ⟨page, hpage, rfl⟩, rfl, hindex⟩

/-- The first slots of different pages are different slots. -/
theorem nodup_tracePages {extents : List (ℕ × ℕ)} (h : (extents.map Prod.fst).Nodup) :
    ((p.tracePages extents).map Prod.fst).Nodup := by
  induction extents with
  | nil => exact List.nodup_nil
  | cons x extents ih =>
    rw [List.map_cons, List.nodup_cons] at h
    have hcons : p.tracePages (x :: extents) = p.tracePage x.1 x.2 ++ p.tracePages extents := rfl
    rw [hcons, List.map_append, List.nodup_append']
    refine ⟨?_, ih h.2, ?_⟩
    · rw [tracePage, List.map_map]
      exact List.nodup_range.map fun i j hij => (SlotAddr.mk.inj hij).2
    · intro addr hx hrest
      obtain ⟨v, hv, rfl⟩ := List.mem_map.mp hx
      obtain ⟨v', hv', heq⟩ := List.mem_map.mp hrest
      obtain ⟨⟨y, hy, hpage, -⟩, -⟩ := mem_tracePages.mp hv'
      refine h.1 (List.mem_map.mpr ⟨y, hy, ?_⟩)
      rw [← hpage, heq]
      exact (mem_tracePage.mp hv).1

/-- The whole trace. -/
theorem trace_eq (h : Pooled p active) :
    p.trace = some (p.tracePages
      (p.stackExtents 0 p.stack ++ active.flatMap fun b => boxExtents (p.boxes b))) := by
  have hlength : active.length ≤ p.nextBox := by
    have hsub : active ⊆ List.range p.nextBox := fun b hb =>
      List.mem_range.mpr (h.fresh b (List.mem_append_left _ hb))
    simpa using (List.subperm_of_subset h.active_nodup hsub).length_le
  rw [trace, h.chain.walk_eq hlength]
  refine congrArg some ?_
  rw [traceStack_eq, tracePages, tracePages, List.flatMap_append, List.flatMap_assoc]
  exact congrArg _ (congrArg (active.flatMap ·) (funext tracePrivate_eq))

/-- **The tracer** comes by the slots that are visited, and finds what is in memory. -/
theorem mem_trace (h : Pooled p active) {visits : List Visit} (htrace : p.trace = some visits)
    {v : Visit} : v ∈ visits ↔ p.Visited active v.1 ∧ v.2 = p.memory v.1 := by
  rw [trace_eq h, Option.some.injEq] at htrace
  rw [← htrace, mem_tracePages, Visited, ← exists_stackExtents_iff]
  refine and_congr_left fun _ => ?_
  simp only [List.mem_append, List.mem_flatMap, ← exists_boxExtents_iff]
  constructor
  · rintro ⟨x, hx | ⟨b, hb, hx⟩, hin⟩
    · exact .inl ⟨x, hx, hin⟩
    · exact .inr ⟨b, hb, x, hx, hin⟩
  · rintro (⟨x, hx, hin⟩ | ⟨b, hb, x, hx, hin⟩)
    · exact ⟨x, .inl hx, hin⟩
    · exact ⟨x, .inr ⟨b, hb, hx⟩, hin⟩

/-- **The tracer** comes by no slot twice. -/
theorem nodup_trace (h : Pooled p active) {visits : List Visit} (htrace : p.trace = some visits) :
    (visits.map Prod.fst).Nodup := by
  rw [trace_eq h, Option.some.injEq] at htrace
  rw [← htrace]
  refine nodup_tracePages (List.nodup_iff_count_le_one.mpr fun page => ?_)
  have hone := h.accounted.single page
  have hstack := (map_fst_stackExtents (p := p) 0 p.stack).sublist.count_le page
  rw [List.map_append, List.count_append, List.map_flatMap, List.count_flatMap]
  simp only [map_fst_boxExtents, Function.comp_def, tally] at hone ⊢
  omega

end Boxes

end HandlePool

end Js
