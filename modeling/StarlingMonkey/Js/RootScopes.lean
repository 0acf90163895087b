import StarlingMonkey.Js.PoolMemory

/-!
# Scopes on the pool of root handles

What every order of creating scopes, rooting values in them and dropping them keeps.

* `Leveled` is the invariant of the levels, together with the scopes that left them: the bases do
  not decrease, a level is alive as long as its scope is, and every live scope has one.
* `Rooted` adds the slots: every slot of a live scope is on the stack above the scope's base and
  below the bases of the scopes created after it, or in the scope's own pages.
* `pool_sound` is the law of the pool over all runs.
-/

namespace Js

open HandlePool

/-- A level and the scope it was added for. -/
structure Entry where
  level : Level
  scope : ℕ

/-- The levels of a pool and the scopes they were added for. -/
structure Leveled (w : Roots) (entries : List Entry) : Prop where
  levels : w.pool.levels = entries.map Entry.level
  sorted : entries.Pairwise fun e e' => e.scope < e'.scope ∧ e.level.base ≤ e'.level.base
  alive : ∀ e ∈ entries, e.level.alive = (w.scopes e.scope).isSome
  owned : ∀ s scope, w.scopes s = some scope → ∃ level, entries[scope.level]? = some ⟨level, s⟩
  bounded : ∀ e ∈ entries, e.level.base ≤ w.pool.top ∧ e.scope < w.born
  ground : ∀ e, entries.head? = some e → e.level.base = 0
  empty : entries = [] → w.pool.top = 0

/-- A handle is a slot of the root stack that no scope created after the handle's is to truncate. -/
structure OnStack (w : Roots) (entries : List Entry) (handle : Handle) (k : ℕ) : Prop where
  lt_top : k < w.pool.top
  addr : w.pool.stackAddr k = some handle.addr
  above : ∃ e ∈ entries, e.scope = handle.scope ∧ e.level.base ≤ k
  below : ∀ e ∈ entries, handle.scope < e.scope → k < e.level.base

/-- A handle of a live scope is where its scope roots values. -/
def Placed (w : Roots) (entries : List Entry) (scope : ScopeAlloc) (handle : Handle) : Prop :=
  (∃ k, OnStack w entries handle k) ∨
    ∃ b, scope.privatePages = some b ∧ (w.pool.boxes b).Holds handle.addr

/-- **The invariant** of a pool and its scopes. -/
structure Rooted (w : Roots) (entries : List Entry) (active : List ℕ) : Prop
    extends Leveled w entries where
  pooled : Pooled w.pool active
  handles_born : ∀ handle ∈ w.handles, handle.scope < w.born
  owned_iff : ∀ b, b ∈ active ↔ w.Owned b
  owner_inj : ∀ s s' scope scope' b, w.scopes s = some scope → w.scopes s' = some scope' →
    scope.privatePages = some b → scope'.privatePages = some b → s = s'
  placed : ∀ handle ∈ w.handles, ∀ scope, w.scopes handle.scope = some scope →
    Placed w entries scope handle
  kept : ∀ handle ∈ w.handles, w.Live handle.scope → w.pool.memory handle.addr = handle.slot
  distinct : w.handles.Pairwise fun handle handle' =>
    w.Live handle.scope → w.Live handle'.scope → handle.addr ≠ handle'.addr
  stack_written : ∀ k < w.pool.top, ∃ handle ∈ w.handles, OnStack w entries handle k ∧
    w.pool.memory handle.addr = handle.slot
  box_written : ∀ s scope b, w.scopes s = some scope → scope.privatePages = some b →
    ∀ addr, (w.pool.boxes b).Holds addr →
      ∃ handle ∈ w.handles, handle.scope = s ∧ handle.addr = addr

/-- The last level is that of a live scope. -/
def LastAlive (entries : List Entry) : Prop :=
  ∀ e, entries.getLast? = some e → e.level.alive = true

section Steps

variable {w : Roots} {entries : List Entry} {active : List ℕ} {s b k : ℕ} {scope : ScopeAlloc}
  {e e' : Entry} {handle : Handle} {slot : Slot} {p : HandlePool}

theorem Roots.live_of_some (h : w.scopes s = some scope) : w.Live s := by
  rw [Roots.Live, h]
  rfl

theorem Roots.Live.exists_scope (h : w.Live s) : ∃ scope, w.scopes s = some scope :=
  Option.isSome_iff_exists.mp h

/-! ### Levels -/

/-- An entry is known by its scope. -/
theorem Leveled.entry_inj (h : Leveled w entries) (he : e ∈ entries) (he' : e' ∈ entries)
    (heq : e.scope = e'.scope) : e = e' := by
  have hsorted : entries.Pairwise fun e e' => e.scope = e'.scope → e = e' :=
    h.sorted.imp fun hlt heq => absurd heq (Nat.ne_of_lt hlt.1)
  have hflip : entries.Pairwise (flip fun e e' => e.scope = e'.scope → e = e') :=
    h.sorted.imp fun hlt heq => absurd heq (Nat.ne_of_gt hlt.1)
  exact hsorted.forall_of_forall_of_flip (fun _ _ _ => rfl) hflip he he' heq

/-- The last entry is that of the scope that was created last. -/
theorem Leveled.le_last {init : List Entry} (h : Leveled w (init ++ [e])) (he' : e' ∈ init ++ [e]) :
    e'.scope ≤ e.scope ∧ e'.level.base ≤ e.level.base := by
  rcases List.mem_append.mp he' with hinit | hlast
  · have := (List.pairwise_append.mp h.sorted).2.2 e' hinit e (by simp)
    exact ⟨this.1.le, this.2⟩
  · obtain rfl := List.mem_singleton.mp hlast
    exact ⟨le_rfl, le_rfl⟩

theorem Leveled.entry_of_live (h : Leveled w entries) (hs : w.scopes s = some scope) :
    ∃ e ∈ entries, e.scope = s ∧ e.level.alive = true := by
  obtain ⟨level, hlevel⟩ := h.owned s scope hs
  have hmem := List.mem_of_getElem? hlevel
  exact ⟨⟨level, s⟩, hmem, rfl, by rw [h.alive _ hmem, hs]; rfl⟩

/-- The entry of a live scope is at its level. -/
theorem Leveled.scope_eq_iff (h : Leveled w entries) (hs : w.scopes s = some scope) {i : ℕ}
    (he : entries[i]? = some e) : scope.level = i ↔ e.scope = s := by
  obtain ⟨level, hlevel⟩ := h.owned s scope hs
  constructor
  · rintro rfl
    rw [he, Option.some.injEq] at hlevel
    rw [hlevel]
  · intro heq
    have hentry := h.entry_inj (List.mem_of_getElem? he) (List.mem_of_getElem? hlevel) heq
    have hnodup : entries.Nodup := h.sorted.imp fun hlt heq => by
      rw [heq] at hlt
      exact Nat.lt_irrefl _ hlt.1
    obtain ⟨hlt, -⟩ := List.getElem?_eq_some_iff.mp hlevel
    refine (List.getElem?_inj hlt hnodup).mp ?_
    rw [hlevel, he, hentry]

/-- **`is_innermost`** answers for the live scope that was created last. -/
theorem Leveled.isInnermost (h : Leveled w entries) (hlast : LastAlive entries)
    (hs : w.scopes s = some scope) :
    ∃ answer, w.pool.isInnermost scope.level = .ok answer ∧
      (answer = true ↔ ∀ s', w.Live s' → s' ≤ s) ∧
      (answer = true ↔ ∀ e ∈ entries, e.scope ≤ s) := by
  obtain ⟨level, hlevel⟩ := h.owned s scope hs
  obtain ⟨init, last, rfl⟩ : ∃ init last, entries = init ++ [last] := by
    refine ⟨entries.dropLast, entries.getLast ?_, (List.dropLast_append_getLast _).symm⟩
    rintro rfl
    cases hlevel
  have hlength : w.pool.levels.length = init.length + 1 := by
    simp [h.levels]
  have hne : w.pool.levels.isEmpty = false := by
    rw [List.isEmpty_eq_false_iff, ← List.length_pos_iff, hlength]
    exact Nat.succ_pos _
  have hlive : w.Live last.scope := by
    rw [Roots.Live, ← h.alive last (by simp)]
    exact hlast last (by simp)
  have hiff : scope.level = init.length ↔ last.scope = s :=
    h.scope_eq_iff hs List.getElem?_concat_length
  refine ⟨scope.level == init.length, ?_, ?_, ?_⟩
  · rw [HandlePool.isInnermost, hne, hlength]
    rfl
  · rw [beq_iff_eq, hiff]
    constructor
    · rintro rfl s' hs'
      obtain ⟨scope', hs'⟩ := hs'.exists_scope
      obtain ⟨e, he, rfl, -⟩ := h.entry_of_live hs'
      exact (h.le_last he).1
    · intro hmax
      have := (h.le_last (List.mem_of_getElem? hlevel)).1
      exact Nat.le_antisymm (hmax _ hlive) this
  · rw [beq_iff_eq, hiff]
    constructor
    · rintro rfl e he
      exact (h.le_last he).1
    · intro hmax
      have := (h.le_last (List.mem_of_getElem? hlevel)).1
      exact Nat.le_antisymm (hmax last (by simp)) this

theorem Leveled.lt_born (h : Leveled w entries) (hs : w.scopes s = some scope) : s < w.born := by
  obtain ⟨e, he, rfl, -⟩ := h.entry_of_live hs
  exact (h.bounded e he).2

/-! ### A new scope -/

/-- A pool with one more scope. -/
private def withScope (w : Roots) : Roots :=
  { w with
    pool := { w.pool with levels := w.pool.levels ++ [⟨w.pool.top, true⟩] }
    scopes := Function.update w.scopes w.born (some ⟨w.pool.levels.length, none⟩)
    born := w.born + 1 }

private theorem withScope_scopes (hs : s ≠ w.born) : (withScope w).scopes s = w.scopes s :=
  Function.update_of_ne hs ..

/-- The scopes with private pages are those from before. -/
private theorem some_of_withScope (h : Leveled w entries)
    (hs : (withScope w).scopes s = some scope) :
    w.scopes s = some scope ∨ (s = w.born ∧ scope = ⟨entries.length, none⟩) := by
  by_cases hne : s = w.born
  · subst hne
    have hself : (withScope w).scopes w.born = some ⟨w.pool.levels.length, none⟩ :=
      Function.update_self ..
    rw [hself, Option.some.injEq, h.levels, List.length_map] at hs
    exact .inr ⟨rfl, hs.symm⟩
  · rw [withScope_scopes hne] at hs
    exact .inl hs

private theorem Leveled.withScope (h : Leveled w entries) :
    Leveled (withScope w) (entries ++ [⟨⟨w.pool.top, true⟩, w.born⟩]) where
  levels := by
    show w.pool.levels ++ [⟨w.pool.top, true⟩] = _
    rw [h.levels, List.map_append]
    rfl
  sorted := by
    refine List.pairwise_append.mpr ⟨h.sorted, List.pairwise_singleton .., fun e he e' he' => ?_⟩
    obtain rfl := List.mem_singleton.mp he'
    exact ⟨(h.bounded e he).2, (h.bounded e he).1⟩
  alive := by
    intro e he
    rcases List.mem_append.mp he with he | he
    · rw [withScope_scopes (Nat.ne_of_lt (h.bounded e he).2)]
      exact h.alive e he
    · obtain rfl := List.mem_singleton.mp he
      show true = (Function.update w.scopes w.born _ w.born).isSome
      rw [Function.update_self]
      rfl
  owned := by
    intro s scope hs
    rcases some_of_withScope h hs with hs | ⟨rfl, rfl⟩
    · obtain ⟨level, hlevel⟩ := h.owned s scope hs
      obtain ⟨hlt, -⟩ := List.getElem?_eq_some_iff.mp hlevel
      exact ⟨level, by rw [List.getElem?_append_left hlt, hlevel]⟩
    · exact ⟨_, List.getElem?_concat_length⟩
  bounded := by
    intro e he
    rcases List.mem_append.mp he with he | he
    · exact ⟨(h.bounded e he).1, Nat.lt_succ_of_lt (h.bounded e he).2⟩
    · obtain rfl := List.mem_singleton.mp he
      exact ⟨le_rfl, Nat.lt_succ_self _⟩
  ground := by
    intro e he
    cases entries with
    | nil =>
      obtain rfl : (⟨⟨w.pool.top, true⟩, w.born⟩ : Entry) = e := Option.some.inj he
      exact h.empty rfl
    | cons e' entries => exact h.ground e he
  empty := by simp

private theorem OnStack.withScope (h : OnStack w entries handle k) :
    OnStack (withScope w) (entries ++ [⟨⟨w.pool.top, true⟩, w.born⟩]) handle k where
  lt_top := h.lt_top
  addr := h.addr
  above := by
    obtain ⟨e, he, hscope, hbase⟩ := h.above
    exact ⟨e, List.mem_append_left _ he, hscope, hbase⟩
  below := by
    intro e he hlt
    rcases List.mem_append.mp he with he | he
    · exact h.below e he hlt
    · obtain rfl := List.mem_singleton.mp he
      exact h.lt_top

/-- **A new scope** is the innermost one. -/
private theorem Rooted.newScope (h : Rooted w entries active) :
    Rooted (withScope w) (entries ++ [⟨⟨w.pool.top, true⟩, w.born⟩]) active where
  toLeveled := h.toLeveled.withScope
  pooled := h.pooled.truncate le_rfl _
  handles_born := fun handle hmem => Nat.lt_succ_of_lt (h.handles_born handle hmem)
  owned_iff := by
    intro b
    rw [h.owned_iff]
    constructor
    · rintro ⟨s, scope, hs, hb⟩
      refine ⟨s, scope, ?_, hb⟩
      rw [withScope_scopes (Nat.ne_of_lt (h.lt_born hs)), hs]
    · rintro ⟨s, scope, hs, hb⟩
      rcases some_of_withScope h.toLeveled hs with hs | ⟨-, rfl⟩
      · exact ⟨s, scope, hs, hb⟩
      · cases hb
  owner_inj := by
    intro s s' scope scope' b hs hs' hb hb'
    rcases some_of_withScope h.toLeveled hs with hs | ⟨-, rfl⟩
    · rcases some_of_withScope h.toLeveled hs' with hs' | ⟨-, rfl⟩
      · exact h.owner_inj s s' scope scope' b hs hs' hb hb'
      · cases hb'
    · cases hb
  placed := by
    intro handle hmem scope hs
    have hborn := h.handles_born handle hmem
    rw [withScope_scopes (Nat.ne_of_lt hborn)] at hs
    rcases h.placed handle hmem scope hs with ⟨k, hk⟩ | hbox
    · exact .inl ⟨k, hk.withScope⟩
    · exact .inr hbox
  kept := by
    intro handle hmem hlive
    rw [Roots.Live, withScope_scopes (Nat.ne_of_lt (h.handles_born handle hmem))] at hlive
    exact h.kept handle hmem hlive
  distinct := by
    refine h.distinct.imp_of_mem fun {handle handle'} hmem hmem' hne hlive hlive' => ?_
    rw [Roots.Live, withScope_scopes (Nat.ne_of_lt (h.handles_born _ hmem))] at hlive
    rw [Roots.Live, withScope_scopes (Nat.ne_of_lt (h.handles_born _ hmem'))] at hlive'
    exact hne hlive hlive'
  stack_written := by
    intro k hk
    obtain ⟨handle, hmem, hstack, hslot⟩ := h.stack_written k hk
    exact ⟨handle, hmem, hstack.withScope, hslot⟩
  box_written := by
    intro s scope b hs hb
    rcases some_of_withScope h.toLeveled hs with hs | ⟨-, rfl⟩
    · exact h.box_written s scope b hs hb
    · cases hb

/-! ### Rooting a value -/

/-- A scope was returned a slot. -/
private def withHandle (w : Roots) (p : HandlePool) (handle : Handle) : Roots :=
  { w with pool := p, handles := handle :: w.handles }

theorem OnStack.visited (h : OnStack w entries handle k) : w.pool.Visited active handle.addr :=
  .inl ⟨k, h.lt_top, h.addr⟩

theorem Rooted.visited (h : Rooted w entries active) (hmem : handle ∈ w.handles)
    (hlive : w.Live handle.scope) : w.pool.Visited active handle.addr := by
  obtain ⟨scope, hs⟩ := hlive.exists_scope
  rcases h.placed handle hmem scope hs with ⟨k, hk⟩ | ⟨b, hb, hholds⟩
  · exact hk.visited
  · exact .inr ⟨b, (h.owned_iff b).mpr ⟨_, scope, hs, hb⟩, hholds⟩

/-- A slot that was not visited is filled for a live scope. -/
private theorem Rooted.fill (h : Rooted w entries active) (hs : w.scopes s = some scope)
    {addr : SlotAddr} (hpooled : Pooled p active) (hnew : ¬ w.pool.Visited active addr)
    (hlevels : p.levels = w.pool.levels) (htop : w.pool.top ≤ p.top)
    (hmemory : p.memory = Function.update w.pool.memory addr slot)
    (hstack : ∀ handle k, OnStack w entries handle k →
      OnStack (withHandle w p ⟨s, addr, slot⟩) entries handle k)
    (hholds : ∀ b addr', (w.pool.boxes b).Holds addr' → (p.boxes b).Holds addr')
    (hplaced : Placed (withHandle w p ⟨s, addr, slot⟩) entries scope ⟨s, addr, slot⟩)
    (hpushed : ∀ k < p.top, k < w.pool.top ∨
      OnStack (withHandle w p ⟨s, addr, slot⟩) entries ⟨s, addr, slot⟩ k)
    (hheld : ∀ b addr', (p.boxes b).Holds addr' →
      (w.pool.boxes b).Holds addr' ∨ (scope.privatePages = some b ∧ addr' = addr)) :
    Rooted (withHandle w p ⟨s, addr, slot⟩) entries active := by
  have hsame {addr' : SlotAddr} (hvisited : w.pool.Visited active addr') :
      p.memory addr' = w.pool.memory addr' := by
    rw [hmemory, Function.update_of_ne]
    rintro rfl
    exact hnew hvisited
  have hself : p.memory addr = slot := by rw [hmemory, Function.update_self]
  refine ⟨⟨hlevels.trans h.levels, h.sorted, h.alive, h.owned, fun e he => ?_, h.ground, ?_⟩,
    hpooled, ?_, h.owned_iff, h.owner_inj, ?_, ?_, ?_, ?_, ?_⟩
  · exact ⟨(h.bounded e he).1.trans htop, (h.bounded e he).2⟩
  · rintro rfl
    obtain ⟨e, he, -⟩ := h.entry_of_live hs
    cases he
  · intro handle hmem
    rcases List.mem_cons.mp hmem with rfl | hmem
    · exact h.lt_born hs
    · exact h.handles_born handle hmem
  · intro handle hmem scope' hs'
    rcases List.mem_cons.mp hmem with rfl | hmem
    · obtain rfl : scope = scope' := Option.some.inj (hs.symm.trans hs')
      exact hplaced
    · rcases h.placed handle hmem scope' hs' with ⟨k, hk⟩ | ⟨b, hb, hin⟩
      · exact .inl ⟨k, hstack handle k hk⟩
      · exact .inr ⟨b, hb, hholds b _ hin⟩
  · intro handle hmem hlive
    rcases List.mem_cons.mp hmem with rfl | hmem
    · exact hself
    · exact (hsame (h.visited hmem hlive)).trans (h.kept handle hmem hlive)
  · refine List.pairwise_cons.mpr ⟨fun handle hmem _ hlive heq => hnew ?_, h.distinct⟩
    rw [show addr = handle.addr from heq]
    exact h.visited hmem hlive
  · intro k hk
    rcases hpushed k hk with hold | hpushed
    · obtain ⟨handle, hmem, hk, hslot⟩ := h.stack_written k hold
      exact ⟨handle, List.mem_cons_of_mem _ hmem, hstack handle k hk,
        (hsame hk.visited).trans hslot⟩
    · exact ⟨_, List.mem_cons_self, hpushed, hself⟩
  · intro s' scope' b hs' hb addr' hin
    rcases hheld b addr' hin with hold | ⟨hscope, rfl⟩
    · obtain ⟨handle, hmem, hscope, haddr⟩ := h.box_written s' scope' b hs' hb addr' hold
      exact ⟨handle, List.mem_cons_of_mem _ hmem, hscope, haddr⟩
    · exact ⟨_, List.mem_cons_self, h.owner_inj s s' scope scope' b hs hs' hscope hb, rfl⟩

/-- **Rooting on the stack**, which only the innermost scope does. -/
private theorem Rooted.stackFilled (h : Rooted w entries active) (hs : w.scopes s = some scope)
    (hmax : ∀ e ∈ entries, e.scope ≤ s) {addr : SlotAddr} (hpooled : Pooled p active)
    (hfilled : StackFilled w.pool p slot addr) (hnew : ¬ w.pool.Visited active addr) :
    Rooted (withHandle w p ⟨s, addr, slot⟩) entries active := by
  have hstack (handle : Handle) (k : ℕ) (hk : OnStack w entries handle k) :
      OnStack (withHandle w p ⟨s, addr, slot⟩) entries handle k := by
    refine ⟨?_, (hfilled.kept k hk.lt_top).trans hk.addr, hk.above, hk.below⟩
    show k < p.top
    rw [hfilled.top]
    exact Nat.lt_succ_of_lt hk.lt_top
  have hself : OnStack (withHandle w p ⟨s, addr, slot⟩) entries ⟨s, addr, slot⟩ w.pool.top := by
    obtain ⟨e, he, hscope, -⟩ := h.entry_of_live hs
    refine ⟨?_, hfilled.pushed, ⟨e, he, hscope, (h.bounded e he).1⟩, fun e' he' hlt => ?_⟩
    · show w.pool.top < p.top
      rw [hfilled.top]
      exact Nat.lt_succ_self _
    · exact absurd (hmax e' he') (Nat.not_le_of_lt hlt)
  refine h.fill hs hpooled hnew hfilled.levels ?_ hfilled.memory hstack ?_ (.inl ⟨_, hself⟩) ?_ ?_
  · rw [hfilled.top]
    exact Nat.le_succ _
  · rw [hfilled.boxes]
    exact fun _ _ => id
  · intro k hk
    rw [hfilled.top] at hk
    rcases Nat.lt_succ_iff_lt_or_eq.mp hk with hlt | rfl
    · exact .inl hlt
    · exact .inr hself
  · rw [hfilled.boxes]
    exact fun _ _ => .inl

/-- **Rooting in private pages**. -/
private theorem Rooted.boxFilled (h : Rooted w entries active) (hs : w.scopes s = some scope)
    (hb : scope.privatePages = some b) {addr : SlotAddr} (hpooled : Pooled p active)
    (hfilled : BoxFilled w.pool p b slot addr) (hnew : ¬ w.pool.Visited active addr) :
    Rooted (withHandle w p ⟨s, addr, slot⟩) entries active := by
  have hstack (handle : Handle) (k : ℕ) (hk : OnStack w entries handle k) :
      OnStack (withHandle w p ⟨s, addr, slot⟩) entries handle k := by
    refine ⟨hk.lt_top.trans_eq hfilled.top.symm, ?_, hk.above, hk.below⟩
    show p.stackAddr k = _
    rw [stackAddr, hfilled.stack]
    exact hk.addr
  have hiff (b' : ℕ) (addr' : SlotAddr) : (p.boxes b').Holds addr' ↔
      (w.pool.boxes b').Holds addr' ∨ (b' = b ∧ addr' = addr) := by
    by_cases hne : b' = b
    · subst hne
      simp [hfilled.holds]
    · simp [hfilled.boxes b' hne, hne]
  refine h.fill hs hpooled hnew hfilled.levels hfilled.top.ge hfilled.memory hstack ?_ ?_ ?_ ?_
  · exact fun b' addr' hin => (hiff b' addr').mpr (.inl hin)
  · exact .inr ⟨b, hb, (hiff b addr).mpr (.inr ⟨rfl, rfl⟩)⟩
  · exact fun k hk => .inl (hk.trans_eq hfilled.top)
  · intro b' addr' hin
    rcases (hiff b' addr').mp hin with hold | ⟨rfl, rfl⟩
    · exact .inl hold
    · exact .inr ⟨hb, rfl⟩

/-- A live scope gets private pages. -/
private def withBox (w : Roots) (p : HandlePool) (s level b : ℕ) : Roots :=
  { w with pool := p, scopes := Function.update w.scopes s (some ⟨level, some b⟩) }

private theorem some_of_withBox {level : ℕ} {t : ℕ}
    (ht : (withBox w p s level b).scopes t = some scope) :
    (t = s ∧ scope = ⟨level, some b⟩) ∨ (t ≠ s ∧ w.scopes t = some scope) := by
  by_cases hne : t = s
  · subst hne
    have hself : (withBox w p t level b).scopes t = some ⟨level, some b⟩ := Function.update_self ..
    exact .inl ⟨rfl, (Option.some.inj (hself.symm.trans ht)).symm⟩
  · exact .inr ⟨hne, (Function.update_of_ne hne ..).symm.trans ht⟩

private theorem isSome_withBox (hs : w.scopes s = some scope) (level b t : ℕ) :
    ((withBox w p s level b).scopes t).isSome = (w.scopes t).isSome := by
  by_cases hne : t = s
  · subst hne
    show (Function.update w.scopes t (some ⟨level, some b⟩) t).isSome = _
    rw [Function.update_self, hs]
    rfl
  · exact congrArg Option.isSome (Function.update_of_ne hne ..)

/-- **Private pages** without slots. -/
private theorem Rooted.newBox (h : Rooted w entries active) {level : ℕ}
    (hs : w.scopes s = some ⟨level, none⟩) (hb : b ∉ active) (hpooled : Pooled p (b :: active))
    (hsame : SameSlots w.pool p b) (hempty : ∀ addr, ¬ (p.boxes b).Holds addr) :
    Rooted (withBox w p s level b) entries (b :: active) := by
  have hlive (t : ℕ) : (withBox w p s level b).Live t ↔ w.Live t := by
    simp only [Roots.Live, isSome_withBox hs]
  -- the stack is as it was
  have hstack {handle : Handle} {k : ℕ} (hk : OnStack w entries handle k) :
      OnStack (withBox w p s level b) entries handle k := by
    refine ⟨hk.lt_top.trans_eq hsame.top.symm, ?_, hk.above, hk.below⟩
    show p.stackAddr k = _
    rw [stackAddr, hsame.stack]
    exact hk.addr
  -- no scope of before has the new box
  have hbox {t b' : ℕ} {scope : ScopeAlloc} (ht : w.scopes t = some scope)
      (hb' : scope.privatePages = some b') : p.boxes b' = w.pool.boxes b' := by
    refine hsame.boxes b' ?_
    rintro rfl
    exact hb ((h.owned_iff b').mpr ⟨t, scope, ht, hb'⟩)
  refine ⟨⟨hsame.levels.trans h.levels, h.sorted, fun e he => ?_, ?_, fun e he => ?_, h.ground, ?_⟩,
    hpooled, h.handles_born, fun b' => ?_, ?_, ?_, ?_, ?_, ?_, ?_⟩
  · rw [isSome_withBox hs]
    exact h.alive e he
  · intro t scope ht
    rcases some_of_withBox ht with ⟨rfl, rfl⟩ | ⟨-, ht⟩
    · exact h.owned t ⟨level, none⟩ hs
    · exact h.owned t scope ht
  · exact ⟨(h.bounded e he).1.trans_eq hsame.top.symm, (h.bounded e he).2⟩
  · exact fun hnil => hsame.top.trans (h.empty hnil)
  · rw [List.mem_cons, h.owned_iff]
    constructor
    · rintro (rfl | ⟨t, scope, ht, hb'⟩)
      · exact ⟨s, _, Function.update_self .., rfl⟩
      · have hne : t ≠ s := by
          rintro rfl
          rw [hs, Option.some.injEq] at ht
          rw [← ht] at hb'
          cases hb'
        exact ⟨t, scope, (Function.update_of_ne hne ..).trans ht, hb'⟩
    · rintro ⟨t, scope, ht, hb'⟩
      rcases some_of_withBox ht with ⟨rfl, rfl⟩ | ⟨-, ht⟩
      · exact .inl (Option.some.inj hb').symm
      · exact .inr ⟨t, scope, ht, hb'⟩
  · intro t t' scope scope' b' ht ht' hb' hb''
    have hnot {t : ℕ} {scope : ScopeAlloc} (ht : w.scopes t = some scope) :
        scope.privatePages ≠ some b := fun heq => hb ((h.owned_iff b).mpr ⟨t, scope, ht, heq⟩)
    -- each of the two scopes is the one that got the box, or was there before
    rcases some_of_withBox ht with ⟨heq, rfl⟩ | ⟨-, hold⟩ <;>
      rcases some_of_withBox ht' with ⟨heq', rfl⟩ | ⟨-, hold'⟩
    · exact heq.trans heq'.symm
    · exact absurd (hb''.trans hb'.symm) (hnot hold')
    · exact absurd (hb'.trans hb''.symm) (hnot hold)
    · exact h.owner_inj t t' scope scope' b' hold hold' hb' hb''
  · intro handle hmem scope ht
    rcases some_of_withBox ht with ⟨heq, rfl⟩ | ⟨-, ht⟩
    · rcases h.placed handle hmem _ (heq ▸ hs) with ⟨k, hk⟩ | ⟨b', hb', -⟩
      · exact .inl ⟨k, hstack hk⟩
      · cases hb'
    · rcases h.placed handle hmem scope ht with ⟨k, hk⟩ | ⟨b', hb', hin⟩
      · exact .inl ⟨k, hstack hk⟩
      · refine .inr ⟨b', hb', ?_⟩
        show (p.boxes b').Holds _
        rw [hbox ht hb']
        exact hin
  · intro handle hmem hl
    exact (congrFun hsame.memory _).trans (h.kept handle hmem ((hlive _).mp hl))
  · exact h.distinct.imp fun hne hl hl' => hne ((hlive _).mp hl) ((hlive _).mp hl')
  · intro k hk
    obtain ⟨handle, hmem, hk, hslot⟩ := h.stack_written k (hk.trans_eq hsame.top)
    exact ⟨handle, hmem, hstack hk, (congrFun hsame.memory _).trans hslot⟩
  -- the new box is empty
  · intro t scope b' ht hb' addr hin
    rcases some_of_withBox ht with ⟨rfl, rfl⟩ | ⟨-, ht⟩
    · obtain rfl : b = b' := Option.some.inj hb'
      exact absurd hin (hempty addr)
    · refine h.box_written t scope b' ht hb' addr ?_
      rw [← hbox ht hb']
      exact hin

/-! ### Dropping a scope -/

/-- The level of a scope that is dropped. -/
private def kill (s : ℕ) (e : Entry) : Entry :=
  if e.scope = s then ⟨{ e.level with alive := false }, e.scope⟩ else e

@[simp] private theorem kill_scope : (kill s e).scope = e.scope := by
  rw [kill]
  split_ifs <;> rfl

@[simp] private theorem kill_base : (kill s e).level.base = e.level.base := by
  rw [kill]
  split_ifs <;> rfl

/-- A scope is dropped, up to the loop of `pop_level`. -/
private def withoutScope (w : Roots) (p : HandlePool) (s : ℕ) (scope : ScopeAlloc) : Roots :=
  { w with
    pool := { p with levels := p.levels.modify scope.level ({ · with alive := false }) }
    scopes := Function.update w.scopes s none }

private theorem some_of_withoutScope {scope' : ScopeAlloc} {t : ℕ}
    (ht : (withoutScope w p s scope).scopes t = some scope') :
    t ≠ s ∧ w.scopes t = some scope' := by
  by_cases hne : t = s
  · subst hne
    have hself : (withoutScope w p t scope).scopes t = none := Function.update_self ..
    rw [hself] at ht
    cases ht
  · exact ⟨hne, (Function.update_of_ne hne ..).symm.trans ht⟩

private theorem live_of_withoutScope {t : ℕ} (ht : (withoutScope w p s scope).Live t) :
    w.Live t := by
  obtain ⟨scope', ht⟩ := ht.exists_scope
  exact Roots.live_of_some (some_of_withoutScope ht).2

private theorem Leveled.drop (h : Leveled w entries) (hs : w.scopes s = some scope)
    (hlevels : p.levels = w.pool.levels) (htop : p.top = w.pool.top) :
    Leveled (withoutScope w p s scope) (entries.map (kill s)) where
  levels := by
    show p.levels.modify scope.level _ = _
    rw [hlevels, h.levels]
    refine List.ext_getElem? fun i => ?_
    rw [List.getElem?_modify, List.map_map, List.getElem?_map, List.getElem?_map]
    cases he : entries[i]? with
    | none => rfl
    | some e =>
      simp only [Option.map_some, Function.comp_apply, kill, h.scope_eq_iff hs he]
      split_ifs <;> rfl
  sorted := by
    rw [List.pairwise_map]
    simpa only [kill_scope, kill_base] using h.sorted
  alive := by
    intro e he
    obtain ⟨e, hmem, rfl⟩ := List.mem_map.mp he
    rw [kill_scope, kill, withoutScope]
    split_ifs with heq
    · subst heq
      exact (congrArg Option.isSome (Function.update_self e.scope none w.scopes)).symm
    · refine (h.alive e hmem).trans ?_
      exact (congrArg Option.isSome (Function.update_of_ne heq none w.scopes)).symm
  owned := by
    intro t scope' ht
    obtain ⟨hne, ht⟩ := some_of_withoutScope ht
    obtain ⟨level, hlevel⟩ := h.owned t scope' ht
    exact ⟨level, by rw [List.getElem?_map, hlevel, Option.map_some, kill, if_neg hne]⟩
  bounded := by
    intro e he
    obtain ⟨e, hmem, rfl⟩ := List.mem_map.mp he
    rw [kill_scope, kill_base]
    exact ⟨(h.bounded e hmem).1.trans_eq htop.symm, (h.bounded e hmem).2⟩
  ground := by
    intro e he
    rw [List.head?_map, Option.map_eq_some_iff] at he
    obtain ⟨e, he, rfl⟩ := he
    rw [kill_base]
    exact h.ground e he
  empty := by
    intro hnil
    exact htop.trans (h.empty (List.map_eq_nil_iff.mp hnil))

/-- **A scope is dropped**, its private pages with it. -/
private theorem Rooted.drop (h : Rooted w entries active) (hs : w.scopes s = some scope)
    {active' : List ℕ} (hpooled : Pooled p active') (hlevels : p.levels = w.pool.levels)
    (htop : p.top = w.pool.top) (hstack : p.stack = w.pool.stack)
    (hmemory : p.memory = w.pool.memory)
    (hboxes : ∀ b, scope.privatePages ≠ some b → p.boxes b = w.pool.boxes b)
    (hactive : ∀ b, b ∈ active' ↔ b ∈ active ∧ scope.privatePages ≠ some b) :
    Rooted (withoutScope w p s scope) (entries.map (kill s)) active' := by
  have hkept {handle : Handle} {k : ℕ} (hk : OnStack w entries handle k) :
      OnStack (withoutScope w p s scope) (entries.map (kill s)) handle k := by
    refine ⟨hk.lt_top.trans_eq htop.symm, ?_, ?_, fun e he hlt => ?_⟩
    · show p.stackAddr k = _
      rw [stackAddr, hstack]
      exact hk.addr
    · obtain ⟨e, he, hscope, hbase⟩ := hk.above
      exact ⟨kill s e, List.mem_map_of_mem he, kill_scope.trans hscope, kill_base.trans_le hbase⟩
    · obtain ⟨e, hmem, rfl⟩ := List.mem_map.mp he
      rw [kill_scope] at hlt
      rw [kill_base]
      exact hk.below e hmem hlt
  -- the other scopes keep their boxes: no two share one
  have hbox {t b : ℕ} {scope' : ScopeAlloc} (hne : t ≠ s) (ht : w.scopes t = some scope')
      (hb : scope'.privatePages = some b) : scope.privatePages ≠ some b :=
    fun heq => hne (h.owner_inj t s scope' scope b ht hs hb heq)
  refine ⟨h.toLeveled.drop hs hlevels htop, hpooled.truncate le_rfl _, h.handles_born, fun b => ?_,
    ?_, ?_, ?_, ?_, ?_, ?_⟩
  · rw [hactive, h.owned_iff]
    constructor
    · rintro ⟨⟨t, scope', ht, hb⟩, hnot⟩
      have hne : t ≠ s := by
        rintro rfl
        rw [hs, Option.some.injEq] at ht
        exact hnot (ht ▸ hb)
      exact ⟨t, scope', (Function.update_of_ne hne ..).trans ht, hb⟩
    · rintro ⟨t, scope', ht, hb⟩
      obtain ⟨hne, ht⟩ := some_of_withoutScope ht
      exact ⟨⟨t, scope', ht, hb⟩, hbox hne ht hb⟩
  · intro t t' scope' scope'' b ht ht' hb hb'
    exact h.owner_inj t t' scope' scope'' b (some_of_withoutScope ht).2
      (some_of_withoutScope ht').2 hb hb'
  -- a handle of another scope stays in its place
  · intro handle hmem scope' ht
    obtain ⟨hne, ht⟩ := some_of_withoutScope ht
    rcases h.placed handle hmem scope' ht with ⟨k, hk⟩ | ⟨b, hb, hin⟩
    · exact .inl ⟨k, hkept hk⟩
    · refine .inr ⟨b, hb, ?_⟩
      show (p.boxes b).Holds _
      rw [hboxes b (hbox hne ht hb)]
      exact hin
  · intro handle hmem hlive
    exact (congrFun hmemory _).trans (h.kept handle hmem (live_of_withoutScope hlive))
  · exact h.distinct.imp fun hne hl hl' =>
      hne (live_of_withoutScope hl) (live_of_withoutScope hl')
  · intro k hk
    obtain ⟨handle, hmem, hk, hslot⟩ := h.stack_written k (hk.trans_eq htop)
    exact ⟨handle, hmem, hkept hk, (congrFun hmemory _).trans hslot⟩
  · intro t scope' b ht hb addr hin
    obtain ⟨hne, ht⟩ := some_of_withoutScope ht
    refine h.box_written t scope' b ht hb addr ?_
    rw [← hboxes b (hbox hne ht hb)]
    exact hin

/-- A level of a dropped scope on top of the others is removed. -/
private def popped (w : Roots) (top : ℕ) : Roots :=
  { w with pool := { w.pool with top := top, levels := w.pool.levels.dropLast } }

private theorem Leveled.pop {init : List Entry} (h : Leveled w (init ++ [e]))
    (hdead : e.level.alive = false) : Leveled (popped w e.level.base) init where
  levels := by
    show w.pool.levels.dropLast = _
    rw [h.levels, List.map_append]
    exact List.dropLast_concat
  sorted := (List.pairwise_append.mp h.sorted).1
  alive := fun e' he' => h.alive e' (List.mem_append_left _ he')
  owned := by
    intro s scope (hs : w.scopes s = some scope)
    obtain ⟨level, hlevel⟩ := h.owned s scope hs
    refine ⟨level, ?_⟩
    rw [List.getElem?_append] at hlevel
    split_ifs at hlevel with hlt
    · exact hlevel
    · obtain rfl : e = ⟨level, s⟩ := List.mem_singleton.mp (List.mem_of_getElem? hlevel) |>.symm
      rw [h.alive _ (by simp), hs] at hdead
      cases hdead
  bounded := by
    intro e' he'
    have hmem := List.mem_append_left [e] he'
    exact ⟨(h.le_last hmem).2, (h.bounded e' hmem).2⟩
  ground := by
    intro e' he'
    refine h.ground e' ?_
    rw [List.head?_append, he']
    rfl
  empty := by
    rintro rfl
    exact h.ground e rfl

/-- The handles of the scopes created before stay where they are. -/
private theorem OnStack.pop {init : List Entry} (h : OnStack w (init ++ [e]) handle k)
    (hk : k < e.level.base) : OnStack (popped w e.level.base) init handle k where
  lt_top := hk
  addr := h.addr
  above := by
    obtain ⟨e', he', hscope, hbase⟩ := h.above
    rcases List.mem_append.mp he' with hinit | hlast
    · exact ⟨e', hinit, hscope, hbase⟩
    · obtain rfl := List.mem_singleton.mp hlast
      exact absurd hbase (Nat.not_le_of_lt hk)
  below := fun e' he' hlt => h.below e' (List.mem_append_left _ he') hlt

private theorem Rooted.pop {init : List Entry} (h : Rooted w (init ++ [e]) active)
    (hdead : e.level.alive = false) : Rooted (popped w e.level.base) init active where
  toLeveled := h.toLeveled.pop hdead
  pooled := h.pooled.truncate (h.bounded e (by simp)).1 _
  handles_born := h.handles_born
  owned_iff := h.owned_iff
  owner_inj := h.owner_inj
  placed := by
    intro handle hmem scope (hs : w.scopes handle.scope = some scope)
    rcases h.placed handle hmem scope hs with ⟨k, hk⟩ | hbox
    · obtain ⟨e', he', hscope, -⟩ := hk.above
      have hne : handle.scope ≠ e.scope := by
        intro heq
        rw [h.alive e (by simp), ← heq, hs] at hdead
        cases hdead
      have hle := (h.le_last he').1
      rw [hscope] at hle
      exact .inl ⟨k, hk.pop (hk.below e (by simp) (lt_of_le_of_ne hle hne))⟩
    · exact .inr hbox
  kept := h.kept
  distinct := h.distinct
  stack_written := by
    intro k hk
    have hlt : k < w.pool.top := lt_of_lt_of_le hk (h.bounded e (by simp)).1
    obtain ⟨handle, hmem, hstack, hslot⟩ := h.stack_written k hlt
    exact ⟨handle, hmem, hstack.pop hk, hslot⟩
  box_written := h.box_written

/-- **The loop of `pop_level`** ends at the level of a live scope, or at none. -/
private theorem Rooted.popDead {rounds : ℕ} (h : Rooted w entries active)
    (hrounds : entries.length ≤ rounds) :
    ∃ entries', Rooted { w with pool := HandlePool.popDead rounds w.pool } entries' active ∧
      LastAlive entries' := by
  induction rounds generalizing w entries with
  | zero =>
    obtain rfl := List.length_eq_zero_iff.mp (Nat.le_zero.mp hrounds)
    exact ⟨[], h, by rintro e ⟨⟩⟩
  | succ rounds ih =>
    rcases List.eq_nil_or_concat entries with rfl | ⟨init, e, rfl⟩
    · have hnil : w.pool.levels = [] := h.levels
      refine ⟨[], ?_, by rintro e ⟨⟩⟩
      rw [show HandlePool.popDead (rounds + 1) w.pool = w.pool by
        simp only [HandlePool.popDead, hnil, List.getLast?_nil]]
      exact h
    · rw [List.concat_eq_append] at h hrounds
      have hlast : w.pool.levels.getLast? = some e.level := by
        simp [h.levels]
      cases halive : e.level.alive with
      | true =>
        refine ⟨init ++ [e], ?_, ?_⟩
        · rw [show HandlePool.popDead (rounds + 1) w.pool = w.pool by
            simp only [HandlePool.popDead, hlast, halive, if_true]]
          exact h
        · intro e' he'
          rw [List.getLast?_concat, Option.some.injEq] at he'
          rw [← he']
          exact halive
      | false =>
        rw [List.length_append, List.length_singleton] at hrounds
        obtain ⟨entries', hrooted, hlast'⟩ := ih (h.pop halive) (Nat.le_of_succ_le_succ hrounds)
        refine ⟨entries', ?_, hlast'⟩
        rw [show HandlePool.popDead (rounds + 1) w.pool =
            HandlePool.popDead rounds (popped w e.level.base).pool by
          simp only [HandlePool.popDead, hlast, halive, Bool.false_eq_true, if_false, popped]]
        exact hrooted

/-! ### Every step -/

/-- The invariant between two calls. -/
def Settled (w : Roots) : Prop := ∃ entries active, Rooted w entries active ∧ LastAlive entries

theorem settled_initial : Settled Roots.initial := by
  refine ⟨[], [], ⟨⟨rfl, .nil, ?_, ?_, ?_, ?_, fun _ => rfl⟩,
    ⟨⟨.nil, ?_, rfl, ?_, Nat.zero_le _⟩, ⟨?_, ?_⟩, ?_, Nat.le_refl _⟩, ?_, ?_, ?_, ?_, ?_, .nil,
    ?_, ?_⟩, by rintro e ⟨⟩⟩
  · rintro e ⟨⟩
  · rintro s scope ⟨⟩
  · rintro e ⟨⟩
  · rintro e ⟨⟩
  · rintro b ⟨⟩
  · rintro b ⟨⟩
  · exact fun page => Nat.zero_le _
  · exact fun page _ => rfl
  · rintro b ⟨⟩
  · rintro handle ⟨⟩
  · intro b
    constructor
    · rintro ⟨⟩
    · rintro ⟨s, scope, hs, -⟩
      cases hs
  · rintro s s' scope scope' b ⟨⟩
  · rintro handle ⟨⟩
  · rintro handle ⟨⟩
  · rintro k ⟨⟩
  · rintro s scope b ⟨⟩

/-- `ScopeAlloc::alloc` returns. -/
private theorem Rooted.alloc (h : Rooted w entries active) (hlast : LastAlive entries)
    (hs : w.scopes s = some scope) (slot : Slot) :
    ∃ w', w.step (.alloc s slot) = .ok w' ∧ Settled w' := by
  obtain ⟨answer, hanswer, -, hmax⟩ := h.isInnermost hlast hs
  cases answer with
  | true =>
    obtain ⟨p, addr, heq, hpooled, hfilled, hnew⟩ := stackAlloc_spec h.pooled slot
    have hrooted := h.stackFilled hs (hmax.mp rfl) hpooled hfilled hnew
    refine ⟨withHandle w p ⟨s, addr, slot⟩, ?_, entries, active, hrooted, hlast⟩
    have hsame : Function.update w.scopes s (some scope) = w.scopes := by
      rw [← hs, Function.update_eq_self]
    simp [Roots.step, hs, ScopeAlloc.alloc, hanswer, heq, Outcome.lift, hsame, withHandle]
  | false =>
    obtain ⟨level, privatePages⟩ := scope
    cases privatePages with
    | some b =>
      have hb : b ∈ active := (h.owned_iff b).mpr ⟨s, _, hs, rfl⟩
      obtain ⟨p, addr, heq, hpooled, hfilled, hnew⟩ := privateAlloc_spec h.pooled hb slot
      have hrooted := h.boxFilled hs rfl hpooled hfilled hnew
      refine ⟨withHandle w p ⟨s, addr, slot⟩, ?_, entries, active, hrooted, hlast⟩
      have hsame : Function.update w.scopes s (some ⟨level, some b⟩) = w.scopes := by
        rw [← hs, Function.update_eq_self]
      simp [Roots.step, hs, ScopeAlloc.alloc, hanswer, ScopeAlloc.privateAlloc, heq, Outcome.lift,
        hsame, withHandle]
    | none =>
      obtain ⟨p, b, hbox, hb, hpooled, hsame, hempty⟩ := newPrivate_spec h.pooled
      have hattached := h.newBox hs hb hpooled hsame hempty
      obtain ⟨p', addr, heq, hpooled', hfilled, hnew⟩ :=
        privateAlloc_spec hpooled List.mem_cons_self slot
      have hself : (withBox w p s level b).scopes s = some ⟨level, some b⟩ :=
        Function.update_self ..
      have hrooted := hattached.boxFilled hself rfl hpooled' hfilled hnew
      refine ⟨withHandle (withBox w p s level b) p' ⟨s, addr, slot⟩, ?_, entries, _, hrooted, hlast⟩
      simp [Roots.step, hs, ScopeAlloc.alloc, hanswer, ScopeAlloc.privateAlloc, hbox, heq,
        Outcome.lift, withHandle, withBox]

/-- `ScopeAlloc::drop` returns. -/
private theorem Rooted.dropScope (h : Rooted w entries active) (hs : w.scopes s = some scope) :
    ∃ w', w.step (.dropScope s) = .ok w' ∧ Settled w' := by
  obtain ⟨p, active', heq, hpooled, hlevels, htop, hstack, hmemory, hboxes, hactive⟩ :
      ∃ p active', scope.privatePages.elim (.ok w.pool) w.pool.recycle = .ok p ∧
        Pooled p active' ∧ p.levels = w.pool.levels ∧
        p.top = w.pool.top ∧ p.stack = w.pool.stack ∧ p.memory = w.pool.memory ∧
        (∀ b, scope.privatePages ≠ some b → p.boxes b = w.pool.boxes b) ∧
        ∀ b, b ∈ active' ↔ b ∈ active ∧ scope.privatePages ≠ some b := by
    cases hbox : scope.privatePages with
    | none => exact ⟨w.pool, active, rfl, h.pooled, rfl, rfl, rfl, rfl, fun _ _ => rfl, by simp⟩
    | some b =>
      have hb : b ∈ active := (h.owned_iff b).mpr ⟨s, scope, hs, hbox⟩
      obtain ⟨p, heq, hpooled, hsame⟩ := recycle_spec h.pooled hb
      refine ⟨p, active.erase b, heq, hpooled, hsame.levels, hsame.top, hsame.stack, hsame.memory,
        fun c hne => hsame.boxes c ?_, fun c => ?_⟩
      · rintro rfl
        exact hne rfl
      · rw [h.pooled.active_nodup.mem_erase_iff, and_comm, Ne, Ne, Option.some.injEq, @eq_comm _ c]
  have hrooted := h.drop hs hpooled hlevels htop hstack hmemory hboxes hactive
  have hlength : (entries.map (kill s)).length ≤ p.levels.length := by
    rw [hlevels, h.levels, List.length_map, List.length_map]
  obtain ⟨entries', hpopped, hlast⟩ := hrooted.popDead hlength
  have hlt : scope.level < p.levels.length := by
    obtain ⟨level, hlevel⟩ := h.owned s scope hs
    rw [hlevels, h.levels, List.length_map]
    exact (List.getElem?_eq_some_iff.mp hlevel).1
  refine ⟨_, ?_, entries', active', hpopped, hlast⟩
  have hdrop : scope.drop w.pool = .ok (HandlePool.popDead p.levels.length
      { p with levels := p.levels.modify scope.level ({ · with alive := false }) }) := by
    cases hbox : scope.privatePages with
    | none =>
      rw [hbox] at heq
      obtain rfl : w.pool = p := Outcome.ok.inj heq
      simp [ScopeAlloc.drop, hbox, HandlePool.popLevel, hlt]
    | some b =>
      rw [hbox] at heq
      have heq : w.pool.recycle b = .ok p := heq
      simp [ScopeAlloc.drop, hbox, heq, HandlePool.popLevel, hlt]
  simp [Roots.step, hs, hdrop, Outcome.lift, withoutScope]

/-- **Every step** returns, and keeps the invariant. -/
theorem Settled.step (h : Settled w) (e : RootsEvent) : ∃ w', w.step e = .ok w' ∧ Settled w' := by
  obtain ⟨entries, active, hrooted, hlast⟩ := h
  cases e with
  | newScope =>
    refine ⟨withScope w, rfl, _, _, hrooted.newScope, fun e he => ?_⟩
    rw [List.getLast?_concat, Option.some.injEq] at he
    rw [← he]
  | alloc s slot =>
    cases hs : w.scopes s with
    | none => exact ⟨w, by rw [Roots.step, hs]; rfl, entries, active, hrooted, hlast⟩
    | some scope => exact hrooted.alloc hlast hs slot
  | dropScope s =>
    cases hs : w.scopes s with
    | none => exact ⟨w, by rw [Roots.step, hs]; rfl, entries, active, hrooted, hlast⟩
    | some scope => exact hrooted.dropScope hs

end Steps

/-- **Every run** keeps the invariant. -/
theorem settled_of_run {w : Roots} (hrun : rootsMachine.Run .initial w) : Settled w := by
  refine hrun.inv settled_initial fun w e w' h _ hstep => ?_
  obtain ⟨w₁, heq, h₁⟩ := h.step e
  have hstep : (w.step e).state? = some w' := hstep
  rw [heq] at hstep
  obtain rfl : w₁ = w' := Option.some.inj hstep
  exact h₁

/-! ### The law of the pool -/

/-- What every order of creating scopes, rooting values and dropping scopes leaves. -/
structure Sound (w : Roots) : Prop where
  /-- No slot of a live scope is handed out again. -/
  distinct : w.handles.Pairwise fun handle handle' =>
    w.Live handle.scope → w.Live handle'.scope → handle.addr ≠ handle'.addr
  /-- The tracer comes by every slot of a live scope once, with what was rooted there, and by no
  others but those of dropped scopes that a later scope keeps on the stack. -/
  traced : ∃ visits, w.pool.trace = some visits ∧ (visits.map Prod.fst).Nodup ∧
    (∀ handle ∈ w.handles, w.Live handle.scope → (handle.addr, handle.slot) ∈ visits) ∧
    ∀ v ∈ visits, ∃ handle ∈ w.handles, (handle.addr, handle.slot) = v ∧
      (w.Live handle.scope ∨
        ((∃ k < w.pool.top, w.pool.stackAddr k = some v.1) ∧ ∃ s, w.Live s ∧ handle.scope < s))
  /-- Of these it hands on all but the null pointers. -/
  collected : ∃ calls, w.pool.collected = some calls ∧ (calls.map Prod.fst).Nodup ∧
    ∀ handle ∈ w.handles, w.Live handle.scope →
      ((handle.addr, handle.slot) ∈ calls ↔ handle.slot.isTraced = true)
  bases : (w.pool.levels.map Level.base).Pairwise (· ≤ ·) ∧
    ∀ level ∈ w.pool.levels, level.base ≤ w.pool.top
  /-- The last level is that of a live scope. -/
  last : w.pool.levels ≠ [] → ∃ s scope, w.scopes s = some scope ∧
    scope.level + 1 = w.pool.levels.length
  innermost : ∀ s scope, w.scopes s = some scope → ∃ answer,
    w.pool.isInnermost scope.level = .ok answer ∧ (answer = true ↔ ∀ s', w.Live s' → s' ≤ s)
  /-- A page is on the stack, free, or in one box. -/
  pages : (w.pool.stack ++ w.pool.freelist).Nodup ∧ ∀ b, w.Owned b →
    (w.pool.boxes b).pages.Nodup ∧ ∀ page ∈ (w.pool.boxes b).pages,
      page ∉ w.pool.stack ∧ page ∉ w.pool.freelist ∧
        ∀ b', w.Owned b' → page ∈ (w.pool.boxes b').pages → b' = b
  /-- A box belongs to one scope, or is free and has no pages. -/
  boxes : w.pool.allocFreelist.Nodup ∧
    (∀ b ∈ w.pool.allocFreelist, ¬ w.Owned b ∧ (w.pool.boxes b).pages = []) ∧
    ∀ s s' scope scope' b, w.scopes s = some scope → w.scopes s' = some scope' →
      scope.privatePages = some b → scope'.privatePages = some b → s = s'
  /-- The active list leads through the private pages of the live scopes. -/
  listed : ∃ active, w.pool.links.Chain none w.pool.activeHead active ∧ active.Nodup ∧
    ∀ b, b ∈ active ↔ w.Owned b
  emptied : (∀ s, ¬ w.Live s) →
    w.pool.top = 0 ∧ w.pool.levels = [] ∧ w.pool.activeHead = none
  /-- Every call returns. -/
  returns : ∀ e, ∃ w', w.step e = .ok w'

section Law

variable {w : Roots} {entries : List Entry} {active : List ℕ}

private theorem Rooted.traced (h : Rooted w entries active) (hlast : LastAlive entries) :
    ∃ visits, w.pool.trace = some visits ∧ (visits.map Prod.fst).Nodup ∧
      (∀ handle ∈ w.handles, w.Live handle.scope → (handle.addr, handle.slot) ∈ visits) ∧
      ∀ v ∈ visits, ∃ handle ∈ w.handles, (handle.addr, handle.slot) = v ∧
        (w.Live handle.scope ∨
          ((∃ k < w.pool.top, w.pool.stackAddr k = some v.1) ∧
            ∃ s, w.Live s ∧ handle.scope < s)) := by
  have htrace := trace_eq h.pooled
  refine ⟨_, htrace, nodup_trace h.pooled htrace, fun handle hmem hlive => ?_, fun v hv => ?_⟩
  · exact (mem_trace h.pooled htrace).mpr
      ⟨h.visited hmem hlive, (h.kept handle hmem hlive).symm⟩
  · obtain ⟨⟨k, hk, haddr⟩ | ⟨b, hb, hin⟩, hslot⟩ := (mem_trace h.pooled htrace).mp hv
    · obtain ⟨handle, hmem, hstack, hkept⟩ := h.stack_written k hk
      have hsame : handle.addr = v.1 := Option.some.inj (hstack.addr.symm.trans haddr)
      refine ⟨handle, hmem, Prod.ext hsame ?_, ?_⟩
      · rw [hslot, ← hsame, hkept]
      · by_cases hlive : w.Live handle.scope
        · exact .inl hlive
        · refine .inr ⟨⟨k, hk, haddr⟩, ?_⟩
          obtain ⟨e, he, hscope, -⟩ := hstack.above
          rcases List.eq_nil_or_concat entries with rfl | ⟨init, last, rfl⟩
          · cases he
          · rw [List.concat_eq_append] at h he hlast
            have hlivelast : w.Live last.scope := by
              rw [Roots.Live, ← h.alive last (by simp)]
              exact hlast last (by simp)
            refine ⟨last.scope, hlivelast, lt_of_le_of_ne ?_ ?_⟩
            · exact hscope ▸ (h.le_last he).1
            · intro heq
              exact hlive (heq ▸ hlivelast)
    · obtain ⟨s, scope, hs, hbox⟩ := (h.owned_iff b).mp hb
      obtain ⟨handle, hmem, rfl, haddr⟩ := h.box_written s scope b hs hbox v.1 hin
      have hlive := Roots.live_of_some hs
      refine ⟨handle, hmem, Prod.ext haddr ?_, .inl hlive⟩
      rw [hslot, ← haddr, h.kept handle hmem hlive]

private theorem Rooted.collected (h : Rooted w entries active) (hlast : LastAlive entries) :
    ∃ calls, w.pool.collected = some calls ∧ (calls.map Prod.fst).Nodup ∧
      ∀ handle ∈ w.handles, w.Live handle.scope →
        ((handle.addr, handle.slot) ∈ calls ↔ handle.slot.isTraced = true) := by
  obtain ⟨visits, htrace, hnodup, hall, -⟩ := h.traced hlast
  refine ⟨visits.filter fun v => v.2.isTraced, ?_, ?_, fun handle hmem hlive => ?_⟩
  · rw [HandlePool.collected, htrace]
    rfl
  · exact hnodup.sublist (List.filter_sublist.map Prod.fst)
  · rw [List.mem_filter]
    exact and_iff_right (hall handle hmem hlive)

private theorem Rooted.exists_last (h : Rooted w entries active) (hlast : LastAlive entries)
    (hne : w.pool.levels ≠ []) :
    ∃ s scope, w.scopes s = some scope ∧ scope.level + 1 = w.pool.levels.length := by
  rcases List.eq_nil_or_concat entries with rfl | ⟨init, last, rfl⟩
  · exact absurd h.levels hne
  · rw [List.concat_eq_append] at h hlast
    have hlive : w.Live last.scope := by
      rw [Roots.Live, ← h.alive last (by simp)]
      exact hlast last (by simp)
    obtain ⟨scope, hs⟩ := hlive.exists_scope
    refine ⟨last.scope, scope, hs, ?_⟩
    rw [(h.scope_eq_iff hs List.getElem?_concat_length).mpr rfl, h.levels]
    simp

private theorem Rooted.emptied (h : Rooted w entries active) (hlast : LastAlive entries)
    (hnone : ∀ s, ¬ w.Live s) :
    w.pool.top = 0 ∧ w.pool.levels = [] ∧ w.pool.activeHead = none := by
  have hlevels : w.pool.levels = [] := by
    by_contra hne
    obtain ⟨s, scope, hs, -⟩ := h.exists_last hlast hne
    exact hnone s (Roots.live_of_some hs)
  have hentries : entries = [] := by
    have := h.levels
    rw [hlevels] at this
    exact List.map_eq_nil_iff.mp this.symm
  refine ⟨h.empty hentries, hlevels, ?_⟩
  have hchain := h.pooled.chain
  cases active with
  | nil => exact hchain
  | cons b active =>
    obtain ⟨s, scope, hs, -⟩ := (h.owned_iff b).mp List.mem_cons_self
    exact absurd (Roots.live_of_some hs) (hnone s)

end Law

/-- **The law of the pool**: it holds after every run. -/
theorem pool_sound (w : Roots) (hrun : rootsMachine.Run .initial w) : Sound w := by
  have hsettled := settled_of_run hrun
  obtain ⟨entries, active, h, hlast⟩ := hsettled
  have hactive (b : ℕ) : w.Owned b → b ∈ active := (h.owned_iff b).mpr
  exact {
    distinct := h.distinct
    traced := h.traced hlast
    collected := h.collected hlast
    bases := by
      rw [h.levels, List.map_map, List.pairwise_map]
      refine ⟨h.sorted.imp fun hlt => hlt.2, fun level hlevel => ?_⟩
      obtain ⟨e, he, rfl⟩ := List.mem_map.mp hlevel
      exact (h.bounded e he).1
    last := h.exists_last hlast
    innermost := fun s scope hs => by
      obtain ⟨answer, heq, hiff, -⟩ := h.isInnermost hlast hs
      exact ⟨answer, heq, hiff⟩
    pages := by
      refine ⟨h.pooled.accounted.free_nodup, fun b hb => ?_⟩
      refine ⟨h.pooled.accounted.pages_nodup (hactive b hb), fun page hpage => ⟨?_, ?_, ?_⟩⟩
      · exact h.pooled.accounted.not_mem_stack (hactive b hb) hpage
      · exact h.pooled.accounted.not_mem_freelist (hactive b hb) hpage
      · exact fun b' hb' =>
          h.pooled.accounted.box_inj (hactive b hb) (hactive b' hb') hpage
    boxes := by
      refine ⟨h.pooled.nodup.of_append_right, fun b hb => ⟨fun howned => ?_, ?_⟩, h.owner_inj⟩
      · exact List.disjoint_of_nodup_append h.pooled.nodup (hactive b howned) hb
      · exact (h.pooled.clean b hb).2
    listed := ⟨active, h.pooled.chain, h.pooled.active_nodup, h.owned_iff⟩
    emptied := h.emptied hlast
    returns := fun e => by
      obtain ⟨w', heq, -⟩ := Settled.step ⟨entries, active, h, hlast⟩ e
      exact ⟨w', heq⟩ }

/-- A scope that roots values while a scope nested in it is alive, and one that is dropped before
the scope nested in it. -/
theorem pool_sound_nested : ∃ w, rootsMachine.Run .initial w ∧ Sound w ∧
    (w.pool.top == 2 && w.pool.activeHead == some 0 &&
      w.pool.levels == [⟨0, true⟩, ⟨0, false⟩, ⟨1, true⟩] &&
      w.pool.trace.map (·.map Prod.fst) == some [⟨0, 0⟩, ⟨0, 1⟩, ⟨1, 0⟩, ⟨1, 1⟩]) = true := by
  obtain ⟨w, hrun, hw⟩ := Machine.exists_run_of_exec (M := rootsMachine) (s := .initial)
    [.newScope, .newScope, .alloc 1 ⟨.object, 1⟩, .alloc 0 ⟨.value, 2⟩, .newScope, .dropScope 1,
      .alloc 2 ⟨.string, 3⟩, .alloc 0 ⟨.id, 4⟩] (P := fun w => w.pool.top == 2 &&
        w.pool.activeHead == some 0 && w.pool.levels == [⟨0, true⟩, ⟨0, false⟩, ⟨1, true⟩] &&
        w.pool.trace.map (·.map Prod.fst) == some [⟨0, 0⟩, ⟨0, 1⟩, ⟨1, 0⟩, ⟨1, 1⟩])
    (by decide)
  exact ⟨w, hrun, pool_sound w hrun, hw⟩

end Js
