import StarlingMonkey.WebStreams.Default.Controller
import StarlingMonkey.Lib.Ledger
import StarlingMonkey.Lib.Reentry

/-!
# Default streams whose author code runs inside the operations

The source's `pull` and `cancel`, the strategy's `size` and the steps of a read request run in the
middle of an operation, and may perform operations in turn.

* `Held`: a stream with what a running operation has in its hands, the requests it is to settle
  and the chunks it is to deliver.
* `Flow`: what happened between two such moments, as far as the order of reads and chunks goes.
  Reads are settled in line, new ones join it at the end, and the chunks handed out, those
  discarded and those queued are the chunks that were held or came in.
* `Legal calm quiet a b`: the stream stays sound, every read stays accounted for, and, if `calm`,
  the reads and chunks flow. If `quiet`, no read is issued while none waits.

`calm` stands for the runs in which no read is issued from inside `size`, `pull`, `cancel` or the
close and error steps of a request. Every algorithm is legal as soon as the code it calls out to is.
-/

namespace WebStreams

open Ledger

/-- A stream, the requests that are to be settled in this order, and the chunks that are to be
handed out before those in the queue. -/
structure Held (χ F : Type) where
  stream : DefaultStream χ F
  line : List ℕ
  hand : List χ

/-- The chunks that a list of settlements hands out. -/
def chunksOf {χ : Type} (l : List (ℕ × ReadResult χ)) : List χ := l.flatMap fun p => p.2.chunks

/-- The places from which author code is called. -/
inductive Callback where
  | size | pull | cancel | chunkSteps | endSteps
deriving DecidableEq, Repr

/-- The callbacks from which a read is as good as one issued between the operations. -/
def Callback.mayRead : Callback → Bool
  | .chunkSteps => true
  | _ => false

/-- In a call of each kind, the code of the environment leads to related states only. -/
def DefaultEnv.Within {χ F : Type}
    (R : Callback → DefaultStream χ F → DefaultStream χ F → Prop) (env : DefaultEnv χ F) : Prop :=
  (∀ c s r t, env.size c s = .ok (r, t) → R .size s t) ∧
    (∀ s t, env.pull s = .ok t → R .pull s t) ∧
    (∀ s t, env.cancel s = .ok t → R .cancel s t) ∧
    (∀ r c s t, env.chunkSteps r c s = .ok t → R .chunkSteps s t) ∧
    ∀ r s t, env.endSteps r s = .ok t → R .endSteps s t

namespace DefaultStream

variable {χ F : Type} {calm quiet : Prop} {env : DefaultEnv χ F}
  {s t u : DefaultStream χ F} {a b c : Held χ F} {rs : List ℕ} {Q : DefaultStream χ F → Prop}

/-- The requests that wait with the reader that holds the lock. -/
def waiting (s : DefaultStream χ F) : List ℕ := s.reader.getD []

/-- A stream between two operations: nothing is in hand. -/
def held (s : DefaultStream χ F) : Held χ F := ⟨s, s.waiting, []⟩

end DefaultStream

/-- The reads that were settled or are in line, compared with those that were issued. -/
def Held.ledger {χ F : Type} (a : Held χ F) : ℕ → ℤ :=
  balance a.stream.nextRequest (a.stream.settled.map Prod.fst) + bill a.line

namespace DefaultStream

variable {χ F : Type} {calm quiet : Prop} {env : DefaultEnv χ F}
  {s t u : DefaultStream χ F} {a b c : Held χ F} {rs : List ℕ} {Q : DefaultStream χ F → Prop}

/-- What a stream keeps true in the middle of its operations. -/
structure Sound (calm : Prop) (s : DefaultStream χ F) : Prop where
  idle : s.state ≠ .readable → s.waiting = []
  released : ∀ rs ∈ s.released, rs = []
  pull : PullLog s.state s.startPromise s.started s.pulling s.pullAgain s.pullPending s.pulls
  drained : calm → s.waiting ≠ [] → s.values = []

/-- From `a` to `b` the reads `l` were settled, `n` were issued, the chunks `cs` came in and the
chunks `dr` were discarded. -/
structure FlowBy (a b : Held χ F) (l : List (ℕ × ReadResult χ)) (n : ℕ) (cs dr : List χ) :
    Prop where
  settled : b.stream.settled = a.stream.settled ++ l
  next : b.stream.nextRequest = a.stream.nextRequest + n
  line : a.line ++ List.range' a.stream.nextRequest n = l.map Prod.fst ++ b.line
  supplied : b.stream.supplied = a.stream.supplied ++ cs
  dropped : b.stream.dropped = a.stream.dropped ++ dr
  goods : a.hand ++ a.stream.values ++ cs = chunksOf l ++ b.hand ++ dr ++ b.stream.values
  drop : dr ≠ [] → b.stream.state ≠ .readable
  ended : a.stream.state ≠ .readable → chunksOf l ++ b.hand = a.hand

/-- Reads are settled in line, and no chunk is lost, duplicated or reordered. -/
def Flow (a b : Held χ F) : Prop := ∃ l n cs dr, FlowBy a b l n cs dr

/-- What an operation may do. -/
structure Legal (calm quiet : Prop) (a b : Held χ F) : Prop where
  ledger : b.ledger = a.ledger
  sound : Sound calm b.stream
  grown : Grown a.stream.pulls b.stream.pulls
  alive : a.stream.state ≠ .readable → b.stream.state ≠ .readable
  flow : calm → Flow a b
  quiet : quiet → calm → a.line = [] → b.stream.nextRequest = a.stream.nextRequest

/-- What code that is called out to obeys. -/
def Obeys (calm quiet : Prop) (s t : DefaultStream χ F) : Prop :=
  Sound calm s → Legal calm quiet s.held t.held

/-- What the code of an environment obeys. -/
def Obedient (calm : Prop) (env : DefaultEnv χ F) : Prop :=
  env.Within fun k => Obeys calm (k.mayRead = false)

@[simp] theorem chunksOf_nil : chunksOf ([] : List (ℕ × ReadResult χ)) = [] := rfl

@[simp] theorem chunksOf_append (l l' : List (ℕ × ReadResult χ)) :
    chunksOf (l ++ l') = chunksOf l ++ chunksOf l' := by
  simp [chunksOf]

@[simp] theorem chunksOf_singleton (r : ℕ) (o : ReadResult χ) : chunksOf [(r, o)] = o.chunks := by
  simp [chunksOf]

/-! ### Composition -/

theorem FlowBy.refl (a : Held χ F) : FlowBy a a [] 0 [] [] :=
  ⟨by simp, rfl, by simp, by simp, by simp, by simp, by simp, by simp⟩

theorem FlowBy.trans {l l' : List (ℕ × ReadResult χ)} {n n' : ℕ} {cs cs' dr dr' : List χ}
    (h : FlowBy a b l n cs dr) (h' : FlowBy b c l' n' cs' dr')
    (halive : b.stream.state ≠ .readable → c.stream.state ≠ .readable)
    (halive' : a.stream.state ≠ .readable → b.stream.state ≠ .readable) :
    FlowBy a c (l ++ l') (n + n') (cs ++ cs') (dr ++ dr') where
  settled := by rw [h'.settled, h.settled, List.append_assoc]
  next := by rw [h'.next, h.next, Nat.add_assoc]
  line := by
    rw [← List.range'_append_1, ← List.append_assoc, h.line, ← h.next, List.append_assoc, h'.line,
      List.map_append, List.append_assoc]
  supplied := by rw [h'.supplied, h.supplied, List.append_assoc]
  dropped := by rw [h'.dropped, h.dropped, List.append_assoc]
  goods := by
    rw [← List.append_assoc, h.goods]
    rcases dr.eq_nil_or_concat' with rfl | ⟨dr₀, d, rfl⟩
    · have hgoods := h'.goods
      simp only [List.append_assoc, chunksOf_append, List.nil_append] at hgoods ⊢
      rw [hgoods]
    · -- what was discarded came after what was in hand, and nothing was handed out since
      have hhand := h'.ended (h.drop (by simp))
      have hgoods := h'.goods
      rw [hhand] at hgoods
      simp only [List.append_assoc, List.append_cancel_left_eq] at hgoods
      simp only [chunksOf_append, List.append_assoc, hgoods]
      rw [← hhand]
      simp only [List.append_assoc]
  drop := fun hne => by
    by_cases hdr : dr = []
    · exact h'.drop (by simpa [hdr] using hne)
    · exact halive (h.drop hdr)
  ended := fun hs => by
    rw [chunksOf_append, List.append_assoc, h'.ended (halive' hs), h.ended hs]

theorem Legal.refl (h : Sound calm a.stream) : Legal calm quiet a a :=
  ⟨rfl, h, .refl _, id, fun _ => ⟨[], 0, [], [], .refl a⟩, fun _ _ _ => rfl⟩

theorem Legal.trans (h : Legal calm quiet a b) (h' : Legal calm quiet b c) :
    Legal calm quiet a c where
  ledger := h'.ledger.trans h.ledger
  sound := h'.sound
  grown := h.grown.trans h'.grown
  alive := h'.alive ∘ h.alive
  flow := fun hc => by
    obtain ⟨l, n, cs, dr, hf⟩ := h.flow hc
    obtain ⟨l', n', cs', dr', hf'⟩ := h'.flow hc
    exact ⟨_, _, _, _, hf.trans hf' h'.alive h.alive⟩
  quiet := fun hq hc hline => by
    have hn := h.quiet hq hc hline
    obtain ⟨l, n, cs, dr, hf⟩ := h.flow hc
    have hn0 : n = 0 := by have := hf.next; omega
    have hnil : b.line = [] := by
      have := hf.line
      rw [hline, hn0] at this
      exact (List.append_eq_nil_iff.mp this.symm).2
    rw [h'.quiet hq hc hnil, hn]

/-- Code that may read does more. -/
theorem Legal.weaken {quiet' : Prop} (h : Legal calm quiet a b) (hq : quiet' → quiet) :
    Legal calm quiet' a b :=
  ⟨h.ledger, h.sound, h.grown, h.alive, h.flow, fun hq' => h.quiet (hq hq')⟩

/-- Code that does not have to be quiet is legal all the same. -/
theorem Legal.reads (h : Legal calm False a b) (hq : ¬ (quiet ∧ calm)) : Legal calm quiet a b :=
  ⟨h.ledger, h.sound, h.grown, h.alive, h.flow, fun hq' hc => absurd ⟨hq', hc⟩ hq⟩

theorem Obeys.refl (s : DefaultStream χ F) : Obeys calm quiet s s := fun h => .refl h

theorem Obeys.trans (h : Obeys calm quiet s t) (h' : Obeys calm quiet t u) :
    Obeys calm quiet s u := fun hs => (h hs).trans (h' (h hs).sound)

/-- Nothing happens while no read waits, except that chunks come in or are discarded. -/
private theorem FlowBy.idle {l : List (ℕ × ReadResult χ)} {n : ℕ} {cs dr : List χ}
    (h : FlowBy s.held t.held l n cs dr) (hw : s.waiting = [])
    (hn : t.nextRequest = s.nextRequest) : l = [] ∧ n = 0 ∧ t.waiting = [] := by
  have hn0 : n = 0 := by have := h.next; change t.nextRequest = s.nextRequest + n at this; omega
  have hline : s.waiting ++ List.range' s.nextRequest n = l.map Prod.fst ++ t.waiting := h.line
  rw [hw, hn0] at hline
  obtain ⟨hl, ht⟩ := List.append_eq_nil_iff.mp hline.symm
  exact ⟨List.map_eq_nil_iff.mp hl, hn0, ht⟩

/-- **Carrying requests and chunks through a call.** As long as no read waits with the stream, a
call that issues none leaves what is in hand the next to be settled and delivered. -/
theorem Legal.carry (h : Legal calm True s.held t.held) (hw : calm → s.waiting = []) (rs : List ℕ)
    (hand : List χ) :
    Legal calm True ⟨s, rs ++ s.waiting, hand⟩ ⟨t, rs ++ t.waiting, hand⟩ ∧
      (calm → t.waiting = []) := by
  refine ⟨⟨?_, h.sound, h.grown, h.alive, fun hc => ?_, fun _ hc _ => h.quiet trivial hc (hw hc)⟩,
    fun hc => ?_⟩
  · have hl := h.ledger
    simp only [Held.ledger, held, bill_append] at hl ⊢
    rw [add_left_comm, hl, add_left_comm]
  · obtain ⟨l, n, cs, dr, hf⟩ := h.flow hc
    obtain ⟨rfl, rfl, ht⟩ := hf.idle (hw hc) (h.quiet trivial hc (hw hc))
    have hgoods : s.values ++ cs = dr ++ t.values := by simpa [held] using hf.goods
    exact ⟨[], 0, cs, dr, hf.settled, hf.next, by simp [hw hc, ht], hf.supplied, hf.dropped,
      by simp [hgoods], hf.drop, fun _ => by simp⟩
  · obtain ⟨l, n, cs, dr, hf⟩ := h.flow hc
    exact (hf.idle (hw hc) (h.quiet trivial hc (hw hc))).2.2

/-- Nothing is settled or issued in a change of the other fields. -/
theorem Sound.move {line line' : List ℕ} {hand hand' : List χ} (cs dr : List χ)
    (ht : Sound calm t) (halive : s.state ≠ .readable → t.state ≠ .readable)
    (hbill : bill line' = bill line) (hline : calm → line' = line)
    (hsupplied : t.supplied = s.supplied ++ cs) (hdropped : t.dropped = s.dropped ++ dr)
    (hgoods : calm → hand ++ s.values ++ cs = hand' ++ dr ++ t.values)
    (hdrop : dr ≠ [] → t.state ≠ .readable) (hended : s.state ≠ .readable → hand' = hand)
    (hsettled : t.settled = s.settled)
    (hnext : t.nextRequest = s.nextRequest)
    (hpulls : Grown s.pulls t.pulls) :
    Legal calm True ⟨s, line, hand⟩ ⟨t, line', hand'⟩ :=
  ⟨by simp only [Held.ledger, hsettled, hnext, hbill], ht, hpulls, halive,
    fun hc => ⟨[], 0, cs, dr, by simp [hsettled], by simp [hnext], by simp [hline hc], hsupplied,
      hdropped, by simpa using hgoods hc, hdrop, fun hs => by simpa using hended hs⟩,
    fun _ _ _ => hnext⟩

/-- A change that the requests, the chunks and the state do not see. -/
theorem Sound.same (ht : Sound calm t) (hstate : t.state = s.state)
    (hwaiting : t.waiting = s.waiting) (hsupplied : t.supplied = s.supplied)
    (hdropped : t.dropped = s.dropped) (hvalues : t.values = s.values)
    (hsettled : t.settled = s.settled)
    (hnext : t.nextRequest = s.nextRequest)
    (hpulls : Grown s.pulls t.pulls) :
    Legal calm True s.held t.held :=
  ht.move [] [] (by simp [hstate]) (by rw [hwaiting]) (fun _ => hwaiting) (by simp [hsupplied])
    (by simp [hdropped]) (fun _ => by simp [hvalues]) (by simp) (fun _ => rfl) hsettled hnext hpulls

/-- The same, when a pull is recorded. -/
theorem Sound.pulled (hpulls : Grown s.pulls t.pulls) (ht : Sound calm t)
    (hstate : t.state = s.state)
    (hwaiting : t.waiting = s.waiting) (hsupplied : t.supplied = s.supplied)
    (hdropped : t.dropped = s.dropped) (hvalues : t.values = s.values)
    (hsettled : t.settled = s.settled)
    (hnext : t.nextRequest = s.nextRequest) :
    Legal calm True s.held t.held :=
  ht.same hstate hwaiting hsupplied hdropped hvalues hsettled hnext hpulls

/-- A legal step, then a legal call. -/
theorem Legal.then {x : DefaultOutcome χ F (DefaultStream χ F)} {E : DefaultAbort → Prop}
    (h : Legal calm quiet a b) (hx : x.Sat (fun t => Legal calm quiet b t.held) Q E) :
    x.Sat (fun t => Legal calm quiet a t.held) Q E :=
  hx.imp fun _ hu => h.trans hu

/-- Whatever a debug assertion does, the call that follows it is legal. -/
theorem check_then {α : Type} {c : Bool} {x : DefaultOutcome χ F α} {P : α → Prop}
    (hx : x.Sat P Q fun _ => True) : (check env c >>= fun _ => x).Sat P Q fun _ => True := by
  unfold check
  cases env.debug <;> cases c <;> simp [Outcome.guard, hx]

end DefaultStream

end WebStreams
