import Mathlib.Algebra.Order.Ring.Int
import Mathlib.Logic.Relation
import Mathlib.Tactic.Common

/-!
# A first-in first-out channel with numbered requests

The abstract model of a stream of data that is supplied in pieces and handed out to requests.
Requests are numbered in the order they are issued; the channel holds what was supplied and not
yet handed out.

* `Channel.Step`: supply more data, issue a request, hand data from the front to the oldest
  request, drop the waiting requests, or use up a number.
* `Channel.Fair`: what every run keeps. What was handed out, in the order it was, followed by what
  is held, is what was supplied; and the requests are served in the order they were issued.
-/

/-- A channel of `α`s. -/
structure Channel (α : Type) where
  /-- The requests served, in order, with what each was given. -/
  log : List (ℕ × List α)
  /-- The requests that wait, oldest first. -/
  waiting : List ℕ
  /-- What is held. -/
  content : List α
  /-- Everything that was supplied. -/
  supplied : List α
  /-- The number of the next request. -/
  next : ℕ

namespace Channel

variable {α : Type} {c c' : Channel α}

/-- One step of a channel. -/
inductive Step : Channel α → Channel α → Prop where
  /-- More data arrives at the back. -/
  | supply (c : Channel α) (bs : List α) :
    Step c { c with content := c.content ++ bs, supplied := c.supplied ++ bs }
  /-- A request joins the queue. -/
  | issue (c : Channel α) :
    Step c { c with waiting := c.waiting ++ [c.next], next := c.next + 1 }
  /-- A number is used up by a request that is not served. -/
  | skip (c : Channel α) : Step c { c with next := c.next + 1 }
  /-- The oldest request is given data from the front. -/
  | deliver (c : Channel α) {r : ℕ} {rs : List ℕ} {bs rest : List α} (hw : c.waiting = r :: rs)
    (hc : c.content = bs ++ rest) :
    Step c { c with log := c.log ++ [(r, bs)], waiting := rs, content := rest }
  /-- The waiting requests are dropped. -/
  | abandon (c : Channel α) : Step c { c with waiting := [] }

/-- Finitely many steps. -/
abbrev Steps : Channel α → Channel α → Prop := Relation.ReflTransGen Step

/-- The data handed out, in the order it was. -/
def delivered (c : Channel α) : List α := c.log.flatMap Prod.snd

/-- The requests served, followed by those that wait. -/
def requests (c : Channel α) : List ℕ := c.log.map Prod.fst ++ c.waiting

/-- Nothing is lost, duplicated or reordered. -/
structure Fair (c : Channel α) : Prop where
  conserved : c.delivered ++ c.content = c.supplied
  ordered : c.requests.Pairwise (· < ·)
  bounded : ∀ r ∈ c.requests, r < c.next

theorem Fair.step (h : c.Fair) (hs : Step c c') : c'.Fair := by
  obtain ⟨hc, ho, hb⟩ := h
  cases hs with
  | supply bs => exact ⟨by simp [delivered, ← hc], ho, hb⟩
  | issue =>
    refine ⟨hc, ?_, ?_⟩
    · simp only [requests, ← List.append_assoc]
      exact List.pairwise_append.mpr ⟨ho, by simp, by simpa [requests] using hb⟩
    · intro r hr
      simp only [requests, ← List.append_assoc, List.mem_append, List.mem_singleton] at hr
      rcases hr with hr | rfl
      · exact Nat.lt_succ_of_lt (hb r (by simpa [requests] using hr))
      · exact Nat.lt_succ_self _
  | skip => exact ⟨hc, ho, fun r hr => Nat.lt_succ_of_lt (hb r hr)⟩
  | @deliver r rs bs rest hw hcont =>
    refine ⟨?_, ?_, ?_⟩
    · simpa [delivered, hcont] using hc
    · simpa [requests, hw] using ho
    · simpa [requests, hw] using hb
  | abandon =>
    refine ⟨hc, ?_, fun r hr => hb r ?_⟩
    · simpa [requests] using (List.pairwise_append.mp ho).1
    · simp only [requests, List.append_nil] at hr
      exact List.mem_append_left _ hr

/-- **Every run of a channel is fair.** -/
theorem Fair.steps (h : c.Fair) (hs : Steps c c') : c'.Fair := by
  induction hs with
  | refl => exact h
  | tail _ hstep ih => exact ih.step hstep

/-- An unused channel is fair. -/
theorem fair_empty : Fair (⟨[], [], [], [], 0⟩ : Channel α) :=
  ⟨rfl, by simp [requests], by simp [requests]⟩

end Channel
