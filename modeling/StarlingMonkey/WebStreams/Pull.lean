import StarlingMonkey.WebStreams.Basic

/-!
# The pull protocol

Both controllers of a readable stream pull their source in the same way: one invocation of the
pull algorithm at a time, after the start promise is fulfilled, and a pull that is wanted while
one is in flight is deferred until that one is fulfilled.

* `PullStep`: what a controller does about pulling. A model records these steps.
* `PullOk`: how the flags `pulling` and `pullAgain` go with the promises.
* `PullLog`: how the flags go with the recorded steps. Its rules `PullLog.call`, `PullLog.defer`
  and `PullLog.resume` are the transitions of the protocol.
-/

namespace WebStreams

/-- An invocation of a pull algorithm, with what the controller knew when it made it. -/
structure PullCall where
  /-- The start promise. -/
  start : PromiseState
  /-- The promise of an earlier invocation was unsettled. -/
  inFlight : Bool
  /-- `controller.[[closeRequested]]`. -/
  closeRequested : Bool
  /-- `stream.[[state]]`. -/
  state : StreamState
deriving DecidableEq, Repr

/-- The pull algorithm was invoked when it may be: once started, one at a time, on a readable
stream that is not closing. -/
def PullCall.Proper (c : PullCall) : Prop :=
  c.start = .fulfilled ∧ c.inFlight = false ∧ c.closeRequested = false ∧ c.state = .readable

instance (c : PullCall) : Decidable c.Proper := inferInstanceAs (Decidable (_ ∧ _))

/-- What a controller does about pulling. -/
inductive PullStep where
  /-- The pull algorithm is invoked. -/
  | call (c : PullCall)
  /-- A pull is wanted while one is in flight. -/
  | deferred
  /-- A pull was fulfilled, and whether another one is wanted is evaluated again. -/
  | resumed
deriving DecidableEq, Repr

/-- Steps were added, and none of them resumes. -/
def Grown (l l' : List PullStep) : Prop := ∃ l₁, l' = l ++ l₁ ∧ .resumed ∉ l₁

theorem Grown.refl (l : List PullStep) : Grown l l := ⟨[], by simp, by simp⟩

theorem Grown.append {p : PullStep} (l : List PullStep) (h : .resumed ≠ p) : Grown l (l ++ [p]) :=
  ⟨[p], rfl, by simpa using h⟩

theorem Grown.trans {l l' l'' : List PullStep} (h : Grown l l') (h' : Grown l' l'') :
    Grown l l'' := by
  obtain ⟨l₁, rfl, h₁⟩ := h
  obtain ⟨l₂, rfl, h₂⟩ := h'
  exact ⟨l₁ ++ l₂, by simp, by simp [h₁, h₂]⟩

/-- What one event adds to the steps. When it resumes the protocol, it records so, and invokes the
pull algorithm next if a pull is `wanted`. -/
structure PullProgress (resuming : Prop) (wanted : Bool) (l l' : List PullStep) : Prop where
  resumed : resuming → ∃ l₁, l' = l ++ .resumed :: l₁ ∧
    (wanted = true → ∃ c l₂, l₁ = .call c :: l₂)
  grown : ¬ resuming → Grown l l'

/-- The calls among the steps are proper. -/
def PullStep.Proper (p : PullStep) : Prop := ∀ c, p = .call c → c.Proper

/-- A pull was deferred and is not resumed yet. -/
def owed (l : List PullStep) : Bool :=
  l.foldl (fun b p => match p with | .call _ => b | .deferred => true | .resumed => false) false

@[simp] theorem owed_nil : owed [] = false := rfl

@[simp] theorem owed_call (l : List PullStep) (c : PullCall) :
    owed (l ++ [.call c]) = owed l := by
  simp [owed]

@[simp] theorem owed_deferred (l : List PullStep) : owed (l ++ [.deferred]) = true := by
  simp [owed]

@[simp] theorem owed_resumed (l : List PullStep) : owed (l ++ [.resumed]) = false := by
  simp [owed]

/-- The flags of the pull protocol. -/
structure PullOk (start : PromiseState) (started pulling pullAgain pullPending : Bool) : Prop where
  again : pullAgain = true → pulling = true
  afterStart : pulling = true → started = true
  afterPromise : started = true → start = .fulfilled
  pending : pullPending = true → pulling = true

/-- Before the start promise is settled, nothing was pulled. -/
theorem PullOk.notStarted {start : PromiseState} {started pulling pullAgain pullPending : Bool}
    (h : PullOk start started pulling pullAgain pullPending) (hstart : start = .pending) :
    started = false ∧ pulling = false ∧ pullAgain = false := by
  have hstarted : started = false := by
    by_contra hc
    have := h.afterPromise (by simpa using hc)
    simp [hstart] at this
  have hpulling : pulling = false := by
    by_contra hc
    have := h.afterStart (by simpa using hc)
    simp [hstarted] at this
  refine ⟨hstarted, hpulling, ?_⟩
  by_contra hc
  have := h.again (by simpa using hc)
  simp [hpulling] at this

/-- The flags of the pull protocol and its recorded steps. While a readable stream is pulling, the
promise of a pull is unsettled. -/
structure PullLog (state : StreamState) (start : PromiseState)
    (started pulling pullAgain pullPending : Bool) (pulls : List PullStep) : Prop extends
    PullOk start started pulling pullAgain pullPending where
  flight : pulling = true → state = .readable → pullPending = true
  calls : ∀ p ∈ pulls, p.Proper
  owes : owed pulls = pullAgain

namespace PullLog

variable {state state' : StreamState} {start : PromiseState}
  {started pulling pullAgain pullPending : Bool} {pulls : List PullStep}

theorem nil : PullLog state .pending false false false false [] :=
  ⟨⟨by simp, by simp, by simp, by simp⟩, by simp, by simp, rfl⟩

private theorem proper_append {p : PullStep} (h : ∀ p ∈ pulls, p.Proper) (hp : p.Proper) :
    ∀ q ∈ pulls ++ [p], q.Proper := by
  intro q hq
  rcases List.mem_append.mp hq with hq | hq
  · exact h q hq
  · obtain rfl := List.mem_singleton.mp hq
    exact hp

/-- The stream ends. -/
theorem ended (h : PullLog state start started pulling pullAgain pullPending pulls)
    (hs : state' ≠ .readable) :
    PullLog state' start started pulling pullAgain pullPending pulls :=
  ⟨h.toPullOk, fun _ hr => absurd hr hs, h.calls, h.owes⟩

/-- The promise of the latest pull is settled, and the stream does not go on. -/
theorem settle (h : PullLog state start started pulling pullAgain pullPending pulls)
    (hs : state ≠ .readable) {p : Bool} (hp : p = true → pullPending = true) :
    PullLog state start started pulling pullAgain p pulls :=
  ⟨⟨h.again, h.afterStart, h.afterPromise, fun hc => h.pending (hp hc)⟩,
    fun _ hr => absurd hr hs, h.calls, h.owes⟩

/-- The pull algorithm is invoked. -/
theorem call (h : PullLog .readable start started pulling pullAgain pullPending pulls)
    (hstarted : started = true) (hpulling : pulling = false) :
    PullLog .readable start started true pullAgain true
      (pulls ++ [.call ⟨start, pullPending, false, .readable⟩]) := by
  have hpending : pullPending = false := by
    by_contra hc
    have := h.pending (by simpa using hc)
    simp [hpulling] at this
  refine ⟨⟨fun _ => rfl, fun _ => hstarted, h.afterPromise, fun _ => rfl⟩, fun _ _ => rfl,
    proper_append h.calls ?_, by rw [owed_call, h.owes]⟩
  rintro _ ⟨⟩
  exact ⟨h.afterPromise hstarted, hpending, rfl, rfl⟩

/-- A pull that is wanted while one is in flight is deferred. -/
theorem defer (h : PullLog state start started true pullAgain pullPending pulls) :
    PullLog state start started true true pullPending (pulls ++ [.deferred]) :=
  ⟨⟨fun _ => rfl, h.afterStart, h.afterPromise, h.pending⟩, h.flight,
    proper_append h.calls (by rintro _ ⟨⟩), owed_deferred _⟩

/-- A pull was fulfilled while none was deferred. -/
theorem fulfil (h : PullLog state start started pulling false pullPending pulls) :
    PullLog state start started false false false pulls :=
  ⟨⟨by simp, by simp, h.afterPromise, by simp⟩, by simp, h.calls, h.owes⟩

/-- A pull was fulfilled while one was deferred, which resumes the protocol. -/
theorem resume (h : PullLog state start started pulling pullAgain pullPending pulls) :
    PullLog state start started false false false (pulls ++ [.resumed]) :=
  ⟨⟨by simp, by simp, h.afterPromise, by simp⟩, by simp,
    proper_append h.calls (by rintro _ ⟨⟩), owed_resumed _⟩

/-- The start promise is settled. -/
theorem start_settled (h : PullLog state .pending started pulling pullAgain pullPending pulls)
    {p : PromiseState} {b : Bool} (hb : b = true → p = .fulfilled) :
    PullLog state p b pulling pullAgain pullPending pulls := by
  obtain ⟨-, rfl, rfl⟩ := h.notStarted rfl
  exact ⟨⟨h.again, by simp, hb, h.pending⟩, by simp, h.calls, h.owes⟩

end PullLog

end WebStreams
