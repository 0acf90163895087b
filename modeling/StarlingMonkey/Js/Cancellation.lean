import StarlingMonkey.Js.Futures

/-!
# Cancelling pending futures

A cancellation searches the two lists of the registry, and so does a loop that asks whether futures
are pending. What a poll turn or a settlement in progress holds is in neither. So a cancellation
that comes from inside a poll, or from a callback while a batch of completions is settled, can miss
its future, which goes on.

`pending_futures_kept` says what holds of every run, and what holds of those in which no
cancellation and no question comes at such a moment.
-/

namespace Js

open Ledger

namespace Frame

/-- The futures a frame will poll again, or whose promise it has yet to settle. -/
def outstanding : Frame → List PendingPromise
  | .scope _ => []
  | .spawning f => [f]
  | .polling _ current futures stillPending completed =>
    current.toList ++ futures ++ stillPending ++ completed.map CompletedFuture.future
  | .settling _ completed => completed.map CompletedFuture.future

end Frame

namespace Futures

variable {s t : Futures} {id : ℕ}

/-! ### Conditions -/

/-- A cancellation finds its future in the lists, unless its promise is being settled; and a loop
that asks has no unfinished future in a frame, unless another of its futures is queued. -/
def Undisturbed (s : Futures) : FutureEvent → Prop
  | .cancelPendingFuture promise => ∀ fr ∈ s.frames, ∀ f ∈ fr.outstanding, f.promise ≠ promise
  | .hasPendingFutures owner => ∀ fr ∈ s.frames, ∀ f ∈ fr.unsettled, f.ready = none →
      f.owner = owner → ∃ g ∈ s.active ++ s.pending, g.ownedBy owner = true
  | _ => True

instance (s : Futures) : ∀ e, Decidable (s.Undisturbed e)
  | .cancelPendingFuture promise => inferInstanceAs (Decidable
      (∀ fr ∈ s.frames, ∀ f ∈ fr.outstanding, f.promise ≠ promise))
  | .hasPendingFutures owner => inferInstanceAs (Decidable
      (∀ fr ∈ s.frames, ∀ f ∈ fr.unsettled, f.ready = none → f.owner = owner →
        ∃ g ∈ s.active ++ s.pending, g.ownedBy owner = true))
  | .enter _ | .leave | .spawn _ | .spawnPolled _ | .firstPolled _ | .turn _ | .poll | .ready _
  | .notReady | .endTurn | .settle | .settled | .endSettle | .cancelPendingFuturesFor _
  | .cancelAllPendingFutures => .isTrue trivial

/-! ### The invariant -/

/-- A cancelled future is in no place that it can go on from. -/
structure Honest (s : Futures) : Prop where
  absent : ∀ id, Cancelled s.log id → s.unfinished id + s.waiting id ≤ 0
  honoured : Protocol.Kept Honoured s.log

end Futures

/-- Cancellations are recorded as such. -/
theorem cancelled_append {l : List FutureRecord} {log : List FutureRecord} {id : ℕ}
    (hl : ∀ r ∈ l, ∀ p, r ≠ .cancelled p) (h : Cancelled (log ++ l) id) : Cancelled log id := by
  induction l using List.reverseRecOn with
  | nil => simpa using h
  | append_singleton l r ih =>
    rw [← List.append_assoc, cancelled_concat] at h
    rcases h with h | ⟨owner, promise, hr, -⟩
    · exact ih (fun r hr => hl r (List.mem_append_left _ hr)) h
    · exact absurd hr (hl r (List.mem_append_right _ (List.mem_singleton_self r)) promise)

namespace Change

open Futures

variable {s t : Futures}

/-- A cancelled future was created. -/
theorem lt_of_cancelled (h : Accounted s) {id : ℕ} (hc : Cancelled s.log id) : id < s.next := by
  obtain ⟨l₁, l₂, owner, promise, hlog, hmem⟩ := hc
  refine h.lt_next (w := owner) (p := promise) ?_
  rw [hlog]
  exact List.mem_append_left _ hmem

/-- **One change** lets no cancelled future go on. -/
theorem honest (hc : Change s t) (ha : Accounted s) (h : Honest s) : Honest t := by
  have hquiet {l : List FutureRecord} (hlog : t.log = s.log ++ l)
      (hl : ∀ r ∈ l, ∀ p, r ≠ .cancelled p) (hle : ∀ id, id < s.next →
        t.unfinished id + t.waiting id ≤ s.unfinished id + s.waiting id) (id : ℕ)
      (hid : Cancelled t.log id) : t.unfinished id + t.waiting id ≤ 0 := by
    -- a cancelled future stays cancelled, and has nothing left to do
    rw [hlog] at hid
    have hs := cancelled_append hl hid
    exact (hle id (lt_of_cancelled ha hs)).trans (h.absent id hs)
  cases hc with
  | stay hnext hunfinished hwaiting hsettling hkeys hlog =>
    refine ⟨hquiet (l := []) (by simpa using hlog) (by simp) fun id _ => ?_, ?_⟩
    · rw [hunfinished, hwaiting]
    · rw [hlog]
      exact h.honoured
  | wake owner hnext hunfinished hwaiting hsettling hkeys hlog =>
    refine ⟨hquiet hlog (by simp) fun id _ => ?_, ?_⟩
    · rw [hunfinished, hwaiting]
    · rw [hlog]
      exact h.honoured.concat trivial
  | create owner promise hnext hunfinished hwaiting hsettling hkeys hlog =>
    refine ⟨hquiet hlog (by simp) fun id hid => ?_, ?_⟩
    · rw [hunfinished, hwaiting]
      -- the new future is not the cancelled one
      have hne : bill [s.next] id = 0 := by
        simp only [bill, Nat.cast_eq_zero]
        rw [List.count_eq_zero, List.mem_singleton]
        omega
      simp only [Pi.add_apply, hne]
      omega
    · rw [hlog]
      exact h.honoured.concat trivial
  | poll owner id w p hid hkey howner hnext hunfinished hwaiting hsettling hkeys hlog =>
    refine ⟨hquiet hlog (by simp) fun id _ => ?_, ?_⟩
    · rw [hunfinished, hwaiting]
    · rw [hlog]
      refine h.honoured.concat fun hcancelled => ?_
      -- a future that is polled is not finished, so it was not cancelled
      have hle := h.absent id hcancelled
      have hw := (Accounted.nonneg s id).2.1
      omega
  | complete id hnext hunfinished hwaiting hsettling hkeys hlog =>
    refine ⟨hquiet hlog (by simp) fun id _ => ?_, ?_⟩
    · rw [hunfinished, hwaiting]
      simp only [Pi.add_apply]
      omega
    · rw [hlog]
      exact h.honoured.concat trivial
  | settle id resolves hnext hunfinished hwaiting hsettling hkeys hlog =>
    refine ⟨hquiet hlog ?_ fun id' _ => ?_, ?_⟩
    · cases resolves <;> simp
    · have hpos := bill_nonneg [id] id'
      rw [hunfinished, hwaiting]
      simp only [Pi.add_apply]
      omega
    · rw [hlog]
      cases resolves with
      | true =>
        -- settling is taken from what waited, and nothing of a cancelled one waits
        refine h.honoured.concat fun hcancelled => ?_
        have hle := h.absent id hcancelled
        have hpos := one_le_bill (List.mem_singleton_self id)
        obtain ⟨hu, hw, -⟩ := Accounted.nonneg t id
        rw [hwaiting, ← hunfinished] at hle
        simp only [Pi.add_apply] at hle
        omega
      | false => simpa using h.honoured
  | settled id hnext hunfinished hwaiting hsettling hkeys hlog =>
    refine ⟨hquiet hlog (by simp) fun id _ => ?_, ?_⟩
    · rw [hunfinished, hwaiting]
    · rw [hlog]
      exact h.honoured.concat trivial
  | drop fs hnext hunfinished hwaiting hsettling hkeys hlog =>
    refine ⟨hquiet hlog ?_ fun id _ => ?_, ?_⟩
    · rintro r hr p rfl
      obtain ⟨f, -, heq⟩ := List.mem_map.mp hr
      cases heq
    · have hu := bill_nonneg (unfinishedOf fs) id
      have hw := bill_nonneg (readyOf fs) id
      rw [hunfinished, hwaiting]
      simp only [Pi.add_apply]
      omega
    · rw [hlog]
      refine h.honoured.append ?_
      intro r hr m
      obtain ⟨f, -, rfl⟩ := List.mem_map.mp hr
      trivial

end Change

namespace Futures

variable {s t : Futures} {id promise : ℕ}

/-! ### Steps -/

theorem mem_of_mem_unfinishedOf {fs : List PendingPromise} (h : id ∈ unfinishedOf fs) :
    ∃ f ∈ fs, f.ready = none ∧ f.id = id := by
  obtain ⟨f, hf, heq⟩ := List.mem_map.mp h
  obtain ⟨hmem, hready⟩ := List.mem_filter.mp hf
  exact ⟨f, hmem, Option.isNone_iff_eq_none.mp hready, heq⟩

theorem mem_of_mem_readyOf {fs : List PendingPromise} (h : id ∈ readyOf fs) :
    ∃ f ∈ fs, f.id = id := by
  obtain ⟨f, hf, heq⟩ := List.mem_map.mp h
  exact ⟨f, List.mem_of_mem_filter hf, heq⟩

/-- An unfinished future is in a list of the registry, or a frame holds it. -/
theorem exists_of_unfinished (hid : 1 ≤ s.unfinished id) :
    ∃ f ∈ s.held, f.id = id ∧ f.ready = none ∧
      (f ∈ s.pending ++ s.active ∨ ∃ fr ∈ s.frames, f ∈ fr.unsettled) := by
  rcases List.mem_append.mp (mem_of_bill hid) with hmem | hmem
  · obtain ⟨f, hf, hready, heq⟩ := mem_of_mem_unfinishedOf hmem
    exact ⟨f, List.mem_append_left _ hf, heq, hready, .inl hf⟩
  · obtain ⟨fr, hfr, hmem⟩ := List.mem_flatMap.mp hmem
    obtain ⟨f, hf, hready, heq⟩ := mem_of_mem_unfinishedOf hmem
    refine ⟨f, List.mem_append_right _ (List.mem_flatMap.mpr ⟨fr, hfr, ?_⟩), heq, hready,
      .inr ⟨fr, hfr, hf⟩⟩
    exact List.mem_append_left _ hf

/-- A future that waits is in a list of the registry, or a frame holds it. -/
theorem exists_of_waiting (hid : 1 ≤ s.waiting id) :
    ∃ f ∈ s.held, f.id = id ∧
      (f ∈ s.pending ++ s.active ∨ ∃ fr ∈ s.frames, f ∈ fr.outstanding) := by
  rcases List.mem_append.mp (mem_of_bill hid) with hmem | hmem
  · obtain ⟨f, hf, heq⟩ := mem_of_mem_readyOf hmem
    exact ⟨f, List.mem_append_left _ hf, heq, .inl hf⟩
  · obtain ⟨fr, hfr, hmem⟩ := List.mem_flatMap.mp hmem
    have hfound : ∃ f ∈ fr.futures, f.id = id ∧ f ∈ fr.outstanding := by
      cases fr with
      | scope owner => cases hmem
      | spawning g =>
        obtain ⟨f, hf, heq⟩ := mem_of_mem_readyOf hmem
        exact ⟨f, List.mem_append_left _ hf, heq, hf⟩
      | polling owner current futures stillPending completed =>
        rcases List.mem_append.mp hmem with hmem | hmem
        · obtain ⟨f, hf, heq⟩ := mem_of_mem_readyOf hmem
          exact ⟨f, List.mem_append_left _ hf, heq, List.mem_append_left _ hf⟩
        · obtain ⟨c, hc, heq⟩ := List.mem_map.mp hmem
          have hf : c.future ∈ completed.map CompletedFuture.future := List.mem_map_of_mem hc
          exact ⟨c.future, List.mem_append_right _ hf, heq, List.mem_append_right _ hf⟩
      | settling current completed =>
        obtain ⟨c, hc, heq⟩ := List.mem_map.mp hmem
        exact ⟨c.future, List.mem_append_right _ (List.mem_map_of_mem (List.mem_append_right _ hc)),
          heq, List.mem_map_of_mem hc⟩
    obtain ⟨f, hf, heq, hout⟩ := hfound
    exact ⟨f, List.mem_append_right _ (List.mem_flatMap.mpr ⟨fr, hfr, hf⟩), heq,
      .inr ⟨fr, hfr, hout⟩⟩

theorem unsettled_subset_outstanding (fr : Frame) : fr.unsettled ⊆ fr.outstanding := by
  cases fr with
  | scope owner => exact List.Subset.refl _
  | spawning f => exact List.Subset.refl _
  | polling owner current futures stillPending completed => exact List.subset_append_left _ _
  | settling current completed => exact List.nil_subset _

/-- A future that is held was created for its promise. -/
theorem promise_of_held (h : Accounted s) {f : PendingPromise} (hf : f ∈ s.held) {w p : ℕ}
    (hmem : .created f.id w p ∈ s.log) : f.owner = w ∧ f.promise = p :=
  h.unique f.id _ _ w p (h.keys _ (List.mem_map_of_mem hf)) hmem

/-- **A cancellation** that comes when no frame holds the future leaves it in no place. -/
theorem absent_of_cancel (h : Accounted (s.dropMatching fun f => f.promise = promise))
    (hok : s.Undisturbed (.cancelPendingFuture promise)) {w : ℕ}
    (hmem : .created id w promise ∈ (s.dropMatching fun f => f.promise = promise).log) :
    (s.dropMatching fun f => f.promise = promise).unfinished id +
      (s.dropMatching fun f => f.promise = promise).waiting id ≤ 0 := by
  have hno (f : PendingPromise) (hf : f ∈ (s.dropMatching fun f => f.promise = promise).held)
      (heq : f.id = id) (hplace : f ∈ (s.dropMatching fun f => f.promise = promise).pending ++
        (s.dropMatching fun f => f.promise = promise).active ∨
        ∃ fr ∈ s.frames, f ∈ fr.outstanding) : False := by
    subst heq
    have hp := (promise_of_held h hf hmem).2
    rcases hplace with hplace | ⟨fr, hfr, hplace⟩
    · rcases List.mem_append.mp hplace with hplace | hplace
      · simpa [hp] using (List.mem_filter.mp hplace).2
      · simpa [hp] using (List.mem_filter.mp hplace).2
    · exact hok fr hfr f hplace hp
  by_contra hpos
  obtain ⟨hu, hw, -⟩ := Accounted.nonneg (s.dropMatching fun f => f.promise = promise) id
  by_cases hunfinished : 1 ≤ (s.dropMatching fun f => f.promise = promise).unfinished id
  · obtain ⟨f, hf, heq, -, hplace⟩ := exists_of_unfinished hunfinished
    exact hno f hf heq (hplace.imp (fun h => h) fun ⟨fr, hfr, hmem⟩ =>
      ⟨fr, hfr, unsettled_subset_outstanding fr hmem⟩)
  · have hwaiting : 1 ≤ (s.dropMatching fun f => f.promise = promise).waiting id := by omega
    obtain ⟨f, hf, heq, hplace⟩ := exists_of_waiting hwaiting
    exact hno f hf heq hplace

/-- **A question** that comes when no frame holds a future of the loop is answered right. -/
theorem asked_of_pending (h : Accounted s) {owner : ℕ}
    (hok : s.Undisturbed (.hasPendingFutures owner)) (hpending : IsPending s.log owner) :
    s.hasPendingFutures owner = true := by
  obtain ⟨id, promise, hmem, hcompleted, hdropped⟩ := hpending
  have hid : 1 ≤ s.unfinished id := by
    have hlt := h.lt_next hmem
    have hledger := congrFun h.completed id
    rw [balance_append] at hledger
    have hc : (idsOf FutureRecord.completed? s.log).count id = 0 :=
      List.count_eq_zero.mpr fun hin => hcompleted (mem_completed hin)
    have hd : (idsOf FutureRecord.unfinished? s.log).count id = 0 := by
      refine List.count_eq_zero.mpr fun hin => ?_
      obtain ⟨r, hr, heq⟩ := List.mem_filterMap.mp hin
      cases r with
      | dropped id' c =>
        cases c with
        | false =>
          cases heq
          exact hdropped _ hr
        | true => cases heq
      | _ => cases heq
    simp only [balance, bill, Pi.add_apply, Pi.zero_apply, if_pos hlt] at hledger
    omega
  obtain ⟨f, hf, rfl, hready, hplace⟩ := exists_of_unfinished hid
  have howner := (promise_of_held h hf hmem).1
  have hqueued : ∃ g ∈ s.active ++ s.pending, g.ownedBy owner = true := by
    rcases hplace with hplace | ⟨fr, hfr, hplace⟩
    · refine ⟨f, ?_, by simp [PendingPromise.ownedBy, howner]⟩
      exact (List.perm_append_comm.mem_iff).mp hplace
    · exact hok fr hfr f hplace hready howner
  obtain ⟨g, hg, howned⟩ := hqueued
  rw [hasPendingFutures, Bool.or_eq_true]
  rcases List.mem_append.mp hg with hg | hg
  · exact .inl (List.any_eq_true.mpr ⟨g, hg, howned⟩)
  · exact .inr (List.any_eq_true.mpr ⟨g, hg, howned⟩)

/-! ### Runs -/

theorem honest_initial : Honest initial :=
  ⟨fun _ h => absurd h not_cancelled_nil, Protocol.kept_nil⟩

/-- **Every undisturbed step** keeps what was promised. -/
theorem Honest.step (h : Honest s) (hs : Sound s) {e : FutureEvent} (hok : s.Undisturbed e)
    (ht : s.step e = .ok t) : Honest t := by
  rcases step_cases hs.2 ht with ⟨hc | ⟨u, hc, hc'⟩, -⟩ | ⟨promise, rfl, rfl⟩ | ⟨owner, rfl, rfl⟩
  · exact hc.honest hs.1 h
  · exact hc'.honest (hc.accounted hs.1) (hc.honest hs.1 h)
  · have hc := change_dropMatching s fun f => f.promise = promise
    have hu := hc.honest hs.1 h
    refine ⟨fun id hid => ?_, hu.honoured.concat trivial⟩
    rcases cancelled_concat.mp hid with hid | ⟨w, p, heq, hmem⟩
    · exact hu.absent id hid
    · cases heq
      exact absent_of_cancel (hc.accounted hs.1) hok hmem
  · refine ⟨fun id hid => ?_, h.honoured.concat (asked_of_pending hs.1 hok)⟩
    rcases cancelled_concat.mp hid with hid | ⟨w, p, heq, -⟩
    · exact h.absent id hid
    · cases heq

theorem sound_run (hrun : futuresMachine.Run initial s) : Sound s :=
  hrun.inv sound_initial fun _ _ _ hs _ h => hs.step (Outcome.eq_ok_of_state? h)

theorem honest_run (hrun : futuresMachine.RunWhere Undisturbed initial s) : Honest s := by
  have h : Sound s ∧ Honest s := by
    refine hrun.inv (I := fun s => Sound s ∧ Honest s) ⟨sound_initial, honest_initial⟩ ?_
    intro u e v hu hok hstep
    have ht := Outcome.eq_ok_of_state? hstep
    exact ⟨hu.1.step ht, hu.2.step hu.1 hok ht⟩
  exact h.2

/-- **Pending futures.** In every run each future that was spawned is in one place, is polled only
in turns of its owner and not after it completed, and settles its promise at most once. If
cancellations and questions come when no frame holds the futures they are about, a cancelled future
neither is polled nor has its resolve callback run again, and a loop is told of its pending
futures. -/
theorem pending_futures_kept (hrun : futuresMachine.Run initial s) :
    idsOf FutureRecord.created? s.log = List.range s.next ∧ s.places.Perm (List.range s.next) ∧
      Protocol.Kept Allowed s.log ∧
      (futuresMachine.RunWhere Undisturbed initial s → Protocol.Kept Honoured s.log) :=
  ⟨(sound_run hrun).1.created, perm_places (sound_run hrun).1, (sound_run hrun).1.protocol,
    fun hok => (honest_run hok).honoured⟩

/-- A future is polled and cancelled, one completes and is settled, and its loop asks. -/
theorem pending_futures_kept_history : ∃ s, futuresMachine.RunWhere Undisturbed initial s ∧
    (s.log = [.created 0 1 7, .created 1 1 8, .polled 1 0, .polled 1 1, .completed 1,
        .resolving 1, .dropped 0 false, .cancelled 7, .settled 1, .asked 1 false] ∧
      idsOf FutureRecord.created? s.log = List.range s.next ∧
      s.places.Perm (List.range s.next) ∧ Protocol.Kept Allowed s.log ∧
      Protocol.Kept Honoured s.log) := by
  have hrun : futuresMachine.RunWhere Undisturbed initial
      ((futuresMachine.exec initial [.enter 1, .spawn 7, .spawn 8, .leave, .turn 1, .poll,
        .notReady, .poll, .ready true, .endTurn, .settle, .cancelPendingFuture 7, .settled,
        .endSettle, .hasPendingFutures 1]).get (by decide)) :=
    Machine.runWhere_of_exec (by decide) (Option.some_get _).symm
  obtain ⟨hcreated, hplaces, hallowed, hhonoured⟩ := pending_futures_kept hrun.run
  exact ⟨_, hrun, by decide, hcreated, hplaces, hallowed, hhonoured hrun⟩

/-- **A cancellation that comes too late.** Two futures complete in one turn, and the reaction to
the first promise cancels the second: its resolve callback runs all the same. -/
theorem cancelled_future_resolves : ∃ s, futuresMachine.Run initial s ∧
    ¬ Protocol.Kept Honoured s.log := by
  obtain ⟨s, hrun, hlog⟩ := Machine.exists_run_of_exec (M := futuresMachine) (s := initial)
    [.enter 1, .spawn 7, .spawn 8, .leave, .turn 1, .poll, .ready true, .poll, .ready true,
      .endTurn,
      .settle, .cancelPendingFuture 8, .settled, .settle]
    (P := fun s => s.log = [.created 0 1 7, .created 1 1 8, .polled 1 0, .completed 0, .polled 1 1,
      .completed 1, .resolving 0, .cancelled 8, .settled 0, .resolving 1]) (by decide)
  refine ⟨s, hrun, fun hkept => ?_⟩
  rw [of_decide_eq_true hlog] at hkept
  refine hkept [.created 0 1 7, .created 1 1 8, .polled 1 0, .completed 0, .polled 1 1,
    .completed 1, .resolving 0, .cancelled 8, .settled 0] (.resolving 1) [] rfl ?_
  exact ⟨[.created 0 1 7, .created 1 1 8, .polled 1 0, .completed 0, .polled 1 1, .completed 1,
    .resolving 0], [.settled 0], 1, 8, rfl, by decide⟩

end Futures

end Js
