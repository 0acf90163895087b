import Mathlib.Algebra.Order.Ring.Int
import Mathlib.Data.List.Count
import Mathlib.Logic.Function.Basic
import Mathlib.Tactic.Common

/-!
# The job queue and the rejection tracker

What the engine keeps for a turn of an event loop: its promises, the queue of reaction jobs, the
pending exception, the cleanups that a collection queued, and the promises that `track_rejection`
recorded. A promise is known by a number, and one that was not created yet is a pending promise
without handlers. A job is known by the promise of its reaction, which an exception of the job
rejects.

`verdict` and `reported` are read by no function of the engine. The end of a drain sets the verdict
on each promise whose rejection the drain followed: whether it had no handler. `reported` lists the
promises whose reasons were printed.

* `Engine.Tracked`: the tracker has the promises that were rejected without a handler since the last
  drain ended, apart from those that got one.
* `Engine.Judged`: a promise is printed, or about to be printed, once or never, as its verdict says.
-/

namespace Js

/-- What is thrown, or what a promise is rejected with. -/
inductive Thrown where
  /-- An `Error` object, of which the engine has a report. -/
  | error
  /-- Another object, with an attached stack or without one. -/
  | object (stack : Bool)
  /-- A value that is no object. -/
  | primitive
deriving DecidableEq, Repr

/-- Where a promise stands. -/
inductive PromiseState where
  | pending
  | fulfilled
  | rejected (reason : Thrown)
deriving DecidableEq, Repr

/-- The reason of a promise that was rejected. -/
def PromiseState.reason? : PromiseState → Option Thrown
  | .rejected reason => some reason
  | _ => none

/-- A promise. -/
structure PromiseObject where
  state : PromiseState
  /-- Whether a handler was ever attached. -/
  handled : Bool
  /-- The promises of the reactions that wait for it. -/
  reactions : List ℕ
  /-- Whether it had no handler when the drain after its rejection ended. -/
  verdict : Option Bool
deriving DecidableEq, Repr

/-- The state of the engine. -/
structure Engine where
  promises : ℕ → PromiseObject
  /-- The job queue. -/
  jobs : List ℕ
  /-- The pending exception. -/
  exception : Option Thrown
  /-- How many `doCleanup` functions are queued. -/
  cleanups : ℕ
  /-- `UNHANDLED_REJECTIONS`. -/
  unhandledRejections : List ℕ
  reported : List ℕ

/-- What code that runs in the engine does. -/
inductive JsOp where
  | queueMicrotask (derived : ℕ)
  | resolve (promise : ℕ)
  | reject (promise : ℕ) (reason : Thrown)
  /-- Attach a handler, whose reaction settles `derived`. -/
  | addReactions (promise derived : ℕ)
  /-- Set the handled flag of a promise. -/
  | setHandled (promise : ℕ)
  /-- A collection finds a dead target of a finalization registry. -/
  | collect
deriving DecidableEq, Repr

/-- `track_rejection` is told of a rejection without a handler, or of a handler that came later. -/
inductive RejectionHandlingState where
  | unhandled
  | handled
deriving DecidableEq, Repr

namespace Engine

/-- No promise was created yet. -/
def initial : Engine where
  promises _ := ⟨.pending, false, [], none⟩
  jobs := []
  exception := none
  cleanups := 0
  unhandledRejections := []
  reported := []

/-- `track_rejection`. -/
def trackRejection (e : Engine) (promise : ℕ) : RejectionHandlingState → Engine
  | .unhandled => { e with unhandledRejections := e.unhandledRejections ++ [promise] }
  | .handled =>
    { e with unhandledRejections := e.unhandledRejections.filter fun tracked => tracked ≠ promise }

/-- Change one promise. -/
def modify (e : Engine) (promise : ℕ) (f : PromiseObject → PromiseObject) : Engine :=
  { e with promises := Function.update e.promises promise (f (e.promises promise)) }

/-- A pending promise is settled, and its reactions are queued. -/
def settle (e : Engine) (promise : ℕ) (state : PromiseState) : Engine :=
  { e.modify promise fun p => { p with state, reactions := [] } with
    jobs := e.jobs ++ (e.promises promise).reactions }

/-- Fulfill a promise, unless it is settled. -/
def resolve (e : Engine) (promise : ℕ) : Engine :=
  match (e.promises promise).state with
  | .pending => e.settle promise .fulfilled
  | _ => e

/-- Reject a promise, unless it is settled. -/
def reject (e : Engine) (promise : ℕ) (reason : Thrown) : Engine :=
  match (e.promises promise).state with
  | .pending =>
    if (e.promises promise).handled then e.settle promise (.rejected reason)
    else (e.settle promise (.rejected reason)).trackRejection promise .unhandled
  | _ => e

/-- A promise is handled from now on. -/
def setHandled (e : Engine) (promise : ℕ) : Engine :=
  let e' := e.modify promise fun p => { p with handled := true }
  match (e.promises promise).state with
  | .rejected _ =>
    if (e.promises promise).handled then e' else e'.trackRejection promise .handled
  | _ => e'

/-- Attach a handler. The reaction waits for the promise, or is queued if that is settled. -/
def addReactions (e : Engine) (promise derived : ℕ) : Engine :=
  match (e.promises promise).state with
  | .pending => (e.setHandled promise).modify promise
      fun p => { p with reactions := p.reactions ++ [derived] }
  | _ => { e.setHandled promise with jobs := e.jobs ++ [derived] }

/-- What an operation does. -/
def act (e : Engine) : JsOp → Engine
  | .queueMicrotask derived => { e with jobs := e.jobs ++ [derived] }
  | .resolve promise => e.resolve promise
  | .reject promise reason => e.reject promise reason
  | .addReactions promise derived => e.addReactions promise derived
  | .setHandled promise => e.setHandled promise
  | .collect => { e with cleanups := e.cleanups + 1 }

/-- Whether an operation queues a job. -/
def queues (e : Engine) : JsOp → Bool
  | .queueMicrotask _ => true
  | .resolve promise | .reject promise _ =>
    (e.promises promise).state == .pending && !(e.promises promise).reactions.isEmpty
  | .addReactions promise _ => (e.promises promise).state != .pending
  | .setHandled _ | .collect => false

/-- Whether a promise was rejected and has no handler. -/
def isUnhandled (e : Engine) (promise : ℕ) : Bool :=
  (e.promises promise).state.reason?.isSome && !(e.promises promise).handled

/-- The verdict on the promises that were rejected, as a drain ends. -/
def judge (e : Engine) : Engine :=
  { e with promises := fun promise =>
      if (e.promises promise).state.reason?.isSome ∧ (e.promises promise).verdict = none then
        { e.promises promise with verdict := some (e.isUnhandled promise) }
      else e.promises promise }

/-- `take_unhandled_rejections`. -/
def takeUnhandledRejections (e : Engine) : List ℕ × Engine :=
  (e.unhandledRejections.filter e.isUnhandled, { e with unhandledRejections := [] })

end Engine

/-! ### What the tracker has -/

namespace Engine

variable {e : Engine} {p promise : ℕ}

/-- What the tracker has. -/
structure Tracked (e : Engine) : Prop where
  nodup : e.unhandledRejections.Nodup
  mem : ∀ p ∈ e.unhandledRejections,
    (e.promises p).state.reason?.isSome ∧ (e.promises p).verdict = none
  tracked : ∀ p, e.isUnhandled p = true → (e.promises p).verdict = none → p ∈ e.unhandledRejections
  judged : ∀ p v, (e.promises p).verdict = some v → (e.promises p).state.reason?.isSome

/-- How often each promise was printed, or is about to be. -/
def Judged (e : Engine) (toReport : List ℕ) : Prop :=
  ∀ p, e.reported.count p + toReport.count p = if (e.promises p).verdict = some true then 1 else 0

/-- The invariant of the tracker, with the promises that are about to be printed. -/
structure Reporting (e : Engine) (toReport : List ℕ) : Prop where
  tracked : e.Tracked
  judged : e.Judged toReport

/-- Two engines with the same promises, rejections and reports. -/
structure SameRejections (e e' : Engine) : Prop where
  promises : e'.promises = e.promises
  unhandledRejections : e'.unhandledRejections = e.unhandledRejections
  reported : e'.reported = e.reported

@[simp] theorem modify_self (f : PromiseObject → PromiseObject) :
    (e.modify promise f).promises promise = f (e.promises promise) := by
  simp [modify]

theorem modify_of_ne (f : PromiseObject → PromiseObject) (h : p ≠ promise) :
    (e.modify promise f).promises p = e.promises p := by
  simp [modify, h]

theorem reporting_initial : initial.Reporting [] where
  tracked := ⟨List.nodup_nil, by simp [initial],
    by simp [initial, isUnhandled, PromiseState.reason?], by simp [initial]⟩
  judged p := by simp [initial]

section Change

variable {e' : Engine} {L : List ℕ}

/-- What code that runs in the engine may do to the promises, and what it leaves alone. -/
structure Change (e e' : Engine) : Prop where
  verdict : ∀ p, (e'.promises p).verdict = (e.promises p).verdict
  rejected : ∀ p, (e.promises p).state.reason?.isSome → (e'.promises p).state.reason?.isSome
  nodup : e.unhandledRejections.Nodup →
    (∀ p ∈ e.unhandledRejections, (e.promises p).state.reason?.isSome) →
    e'.unhandledRejections.Nodup
  mem : ∀ p ∈ e'.unhandledRejections, p ∈ e.unhandledRejections ∨
    (e.promises p).state.reason? = none ∧ (e'.promises p).state.reason?.isSome
  tracked : ∀ p, e'.isUnhandled p = true → p ∈ e'.unhandledRejections ∨
    e.isUnhandled p = true ∧ (p ∈ e.unhandledRejections → p ∈ e'.unhandledRejections)
  reported : e'.reported = e.reported

theorem Tracked.change (h : e.Tracked) (hc : Change e e') : e'.Tracked where
  nodup := hc.nodup h.nodup fun p hp => (h.mem p hp).1
  mem p hp := by
    rcases hc.mem p hp with hp | ⟨hnone, hrejected⟩
    · exact ⟨hc.rejected p (h.mem p hp).1, (hc.verdict p).trans (h.mem p hp).2⟩
    · refine ⟨hrejected, (hc.verdict p).trans ?_⟩
      cases hv : (e.promises p).verdict with
      | none => rfl
      | some v =>
        -- a verdict is about a promise that was rejected
        have hr := h.judged p v hv
        rw [hnone] at hr
        cases hr
  tracked p hp hv := by
    rcases hc.tracked p hp with hmem | ⟨hun, hmem⟩
    · exact hmem
    · exact hmem (h.tracked p hun ((hc.verdict p).symm.trans hv))
  judged p v hv := hc.rejected p (h.judged p v ((hc.verdict p).symm.trans hv))

theorem Reporting.change (h : e.Reporting L) (hc : Change e e') : e'.Reporting L where
  tracked := h.tracked.change hc
  judged p := by
    rw [hc.reported, hc.verdict]
    exact h.judged p

/-- The job queue, the pending exception and the cleanups have nothing to do with rejections. -/
theorem SameRejections.change (h : SameRejections e e') : Change e e' where
  verdict p := by rw [h.promises]
  rejected p hp := by rwa [h.promises]
  nodup hnodup _ := by rwa [h.unhandledRejections]
  mem p hp := by
    rw [h.unhandledRejections] at hp
    exact .inl hp
  tracked p hp := by
    have hun : e.isUnhandled p = true := by rwa [isUnhandled, h.promises] at hp
    rw [h.unhandledRejections]
    exact .inr ⟨hun, id⟩
  reported := h.reported

theorem Change.trans {e'' : Engine} (h : Change e e') (h' : Change e' e'') : Change e e'' where
  verdict p := (h'.verdict p).trans (h.verdict p)
  rejected p hp := h'.rejected p (h.rejected p hp)
  nodup hnodup hmem := by
    refine h'.nodup (h.nodup hnodup hmem) fun p hp => ?_
    exact (h.mem p hp).elim (fun hp => h.rejected p (hmem p hp)) fun hp => hp.2
  mem p hp := by
    rcases h'.mem p hp with hp | ⟨hnone, hrejected⟩
    · exact (h.mem p hp).imp id fun hp => ⟨hp.1, h'.rejected p hp.2⟩
    · refine .inr ⟨Option.not_isSome_iff_eq_none.mp fun hr => ?_, hrejected⟩
      rw [← Option.not_isSome_iff_eq_none] at hnone
      exact hnone (h.rejected p hr)
  tracked p hp := by
    rcases h'.tracked p hp with hmem | ⟨hun, hmem⟩
    · exact .inl hmem
    · exact (h.tracked p hun).imp hmem fun h => ⟨h.1, fun hp => hmem (h.2 hp)⟩
  reported := h'.reported.trans h.reported

/-- A change of one promise that the tracker is not told of. -/
theorem change_modify {f : PromiseObject → PromiseObject}
    (hverdict : (f (e.promises promise)).verdict = (e.promises promise).verdict)
    (hrejected : (e.promises promise).state.reason?.isSome →
      (f (e.promises promise)).state.reason?.isSome)
    (hunhandled : (f (e.promises promise)).state.reason?.isSome →
      (f (e.promises promise)).handled = false → e.isUnhandled promise = true) :
    Change e (e.modify promise f) where
  verdict p := by
    rcases eq_or_ne p promise with rfl | hne
    · rw [modify_self, hverdict]
    · rw [modify_of_ne f hne]
  rejected p hp := by
    rcases eq_or_ne p promise with rfl | hne
    · rw [modify_self]
      exact hrejected hp
    · rwa [modify_of_ne f hne]
  nodup hnodup _ := hnodup
  mem p hp := .inl hp
  tracked p hp := by
    refine .inr ⟨?_, id⟩
    rcases eq_or_ne p promise with rfl | hne
    · rw [isUnhandled, modify_self, Bool.and_eq_true, Bool.not_eq_true'] at hp
      exact hunhandled hp.1 hp.2
    · rwa [isUnhandled, modify_of_ne f hne] at hp
  reported := rfl

theorem change_settle {state : PromiseState} (hpending : (e.promises promise).state = .pending)
    (h : state.reason?.isSome → (e.promises promise).handled = true) :
    Change e (e.settle promise state) := by
  refine (change_modify (f := fun p => { p with state, reactions := [] }) rfl ?_ ?_).trans
    (SameRejections.change ⟨rfl, rfl, rfl⟩)
  · intro hr
    rw [hpending] at hr
    cases hr
  · intro hr hhandled
    exact absurd (h hr) (by simpa using hhandled)

theorem change_resolve : Change e (e.resolve promise) := by
  cases hs : (e.promises promise).state with
  | pending =>
    rw [resolve, hs]
    exact change_settle hs (by simp [PromiseState.reason?])
  | _ =>
    rw [resolve, hs]
    exact SameRejections.change ⟨rfl, rfl, rfl⟩

/-- A promise without a handler is rejected, and the tracker is told. -/
theorem change_rejected {reason : Thrown} (hpending : (e.promises promise).state = .pending) :
    Change e ((e.settle promise (.rejected reason)).trackRejection promise .unhandled) where
  verdict p := by
    rcases eq_or_ne p promise with rfl | hne
    · simp [trackRejection, settle, modify]
    · simp [trackRejection, settle, modify, hne]
  rejected p hp := by
    rcases eq_or_ne p promise with rfl | hne
    · simp [trackRejection, settle, modify, PromiseState.reason?]
    · simpa [trackRejection, settle, modify, hne] using hp
  nodup hnodup hmem := by
    have hnot : promise ∉ e.unhandledRejections := by
      intro hp
      have hr := hmem promise hp
      rw [hpending] at hr
      cases hr
    exact List.nodup_append.mpr ⟨hnodup, by simp,
      fun a ha b hb => by
        rw [List.mem_singleton.mp hb]
        exact fun heq => hnot (heq ▸ ha)⟩
  mem p hp := by
    rcases List.mem_append.mp hp with hp | hp
    · exact .inl hp
    · rw [List.mem_singleton.mp hp, hpending]
      exact .inr ⟨rfl, by simp [trackRejection, settle, modify, PromiseState.reason?]⟩
  tracked p hp := by
    rcases eq_or_ne p promise with rfl | hne
    · exact .inl (List.mem_append_right _ (List.mem_singleton_self _))
    · refine .inr ⟨?_, fun hp => List.mem_append_left _ hp⟩
      simpa [isUnhandled, trackRejection, settle, modify, hne] using hp
  reported := rfl

theorem change_reject {reason : Thrown} : Change e (e.reject promise reason) := by
  cases hs : (e.promises promise).state with
  | pending =>
    rw [reject, hs]
    dsimp only
    split
    case isTrue hhandled => exact change_settle hs fun _ => hhandled
    case isFalse => exact change_rejected hs
  | _ =>
    rw [reject, hs]
    exact SameRejections.change ⟨rfl, rfl, rfl⟩

/-- A handler comes after the rejection, and the tracker is told. -/
theorem change_handled : Change e
    ((e.modify promise fun p => { p with handled := true }).trackRejection promise .handled) where
  verdict p := by
    rcases eq_or_ne p promise with rfl | hne
    · simp [trackRejection, modify]
    · simp [trackRejection, modify, hne]
  rejected p hp := by
    rcases eq_or_ne p promise with rfl | hne
    · simpa [trackRejection, modify] using hp
    · simpa [trackRejection, modify, hne] using hp
  nodup hnodup _ := hnodup.filter _
  mem p hp := .inl (List.mem_filter.mp hp).1
  tracked p hp := by
    rcases eq_or_ne p promise with rfl | hne
    · simp [isUnhandled, trackRejection, modify] at hp
    · refine .inr ⟨?_, fun hp => List.mem_filter.mpr ⟨hp, by simpa using hne⟩⟩
      simpa [isUnhandled, trackRejection, modify, hne] using hp
  reported := rfl

theorem change_setHandled : Change e (e.setHandled promise) := by
  have hmodify : Change e (e.modify promise fun p => { p with handled := true }) :=
    change_modify rfl id fun _ hhandled => Bool.noConfusion hhandled
  cases hs : (e.promises promise).state with
  | rejected reason =>
    rw [setHandled, hs]
    dsimp only
    split
    · exact hmodify
    · exact change_handled
  | _ =>
    rw [setHandled, hs]
    exact hmodify

theorem change_addReactions {derived : ℕ} : Change e (e.addReactions promise derived) := by
  cases hs : (e.promises promise).state with
  | pending =>
    rw [addReactions, hs]
    refine change_setHandled.trans (change_modify rfl id fun hr hhandled => ?_)
    rw [isUnhandled, Bool.and_eq_true, Bool.not_eq_true']
    exact ⟨hr, hhandled⟩
  | _ =>
    rw [addReactions, hs]
    exact change_setHandled.trans (SameRejections.change ⟨rfl, rfl, rfl⟩)

/-- **What code does in the engine**: the tracker hears of it. -/
theorem change_act (op : JsOp) : Change e (e.act op) := by
  cases op with
  | resolve promise => exact change_resolve
  | reject promise reason => exact change_reject
  | addReactions promise derived => exact change_addReactions
  | setHandled promise => exact change_setHandled
  | queueMicrotask derived | collect => exact SameRejections.change ⟨rfl, rfl, rfl⟩

/-- The end of a drain: the promises that are taken are those whose verdict is that they had no
handler. -/
theorem Reporting.take (h : e.Reporting L) :
    e.judge.takeUnhandledRejections.2.Reporting (e.judge.takeUnhandledRejections.1 ++ L) := by
  have hun (p : ℕ) : e.judge.isUnhandled p = e.isUnhandled p := by
    simp only [isUnhandled, judge]
    split <;> rfl
  have hreason (p : ℕ) : (e.judge.promises p).state = (e.promises p).state := by
    simp only [judge]
    split <;> rfl
  -- a verdict that was there stays, and there is one on each promise that was rejected
  have hold (p : ℕ) (v : Bool) (hv : (e.promises p).verdict = some v) :
      (e.judge.promises p).verdict = some v := by simp [judge, hv]
  have hnew (p : ℕ) (hr : (e.promises p).state.reason?.isSome)
      (hv : (e.promises p).verdict = none) :
      (e.judge.promises p).verdict = some (e.isUnhandled p) := by simp [judge, hr, hv]
  have hnone (p : ℕ) (hr : ¬ (e.promises p).state.reason?.isSome) :
      (e.judge.promises p).verdict = (e.promises p).verdict := by simp [judge, hr]
  constructor
  case tracked =>
    refine ⟨List.nodup_nil, by simp [takeUnhandledRejections], fun p hp hv => ?_, fun p v hv => ?_⟩
    · have hr : (e.promises p).state.reason?.isSome := by
        have hp : e.judge.isUnhandled p = true := hp
        rw [hun, isUnhandled, Bool.and_eq_true] at hp
        exact hp.1
      cases hv' : (e.promises p).verdict with
      | none => exact absurd ((hnew p hr hv').symm.trans hv) (by simp)
      | some v => exact absurd ((hold p v hv').symm.trans hv) (by simp)
    · refine (congrArg (fun s => s.reason?.isSome) (hreason p)).trans ?_
      by_contra hr
      exact hr (h.tracked.judged p v ((hnone p hr).symm.trans hv))
  case judged =>
    intro p
    have hjudged := h.judged p
    have hcount : e.judge.takeUnhandledRejections.1.count p =
        if p ∈ e.unhandledRejections ∧ e.isUnhandled p = true then 1 else 0 := by
      have hnodup : e.judge.takeUnhandledRejections.1.Nodup := h.tracked.nodup.filter _
      have hmem : p ∈ e.judge.takeUnhandledRejections.1 ↔
          p ∈ e.unhandledRejections ∧ e.isUnhandled p = true := by
        rw [← hun]
        exact List.mem_filter
      rw [hnodup.count]
      exact if_congr hmem rfl rfl
    rw [List.count_append, hcount]
    change e.reported.count p + _ = if (e.judge.promises p).verdict = some true then 1 else 0
    by_cases hmem : p ∈ e.unhandledRejections
    · obtain ⟨hr, hv⟩ := h.tracked.mem p hmem
      rw [hv, if_neg (by simp)] at hjudged
      rw [hnew p hr hv]
      simp only [hmem, true_and, Option.some.injEq]
      omega
    · rw [if_neg (fun h => hmem h.1), Nat.zero_add, hjudged]
      refine if_congr ?_ rfl rfl
      by_cases hr : (e.promises p).state.reason?.isSome
      · cases hv : (e.promises p).verdict with
        | none =>
          rw [hnew p hr hv, Bool.eq_false_iff.mpr fun hun => hmem (h.tracked.tracked p hun hv)]
          simp
        | some v => rw [hold p v hv]
      · rw [hnone p hr]

/-- A promise is printed. -/
theorem Reporting.print (h : e.Reporting (p :: L)) :
    ({ e with reported := e.reported ++ [p] } : Engine).Reporting L where
  tracked := ⟨h.tracked.nodup, h.tracked.mem, h.tracked.tracked, h.tracked.judged⟩
  judged q := by
    have hq := h.judged q
    rw [List.count_cons] at hq
    change (e.reported ++ [p]).count q + L.count q = _
    rw [List.count_append, List.count_singleton, ← hq]
    omega

/-- A promise that is about to be printed was rejected. -/
theorem Reporting.rejected (h : e.Reporting (p :: L)) :
    ∃ reason, (e.promises p).state = .rejected reason := by
  have hp := h.judged p
  rw [List.count_cons_self] at hp
  have hr : (e.promises p).state.reason?.isSome := by
    by_contra hr
    rw [if_neg fun hv => hr (h.tracked.judged p true hv)] at hp
    omega
  cases hs : (e.promises p).state with
  | rejected reason => exact ⟨reason, rfl⟩
  | _ =>
    rw [hs] at hr
    cases hr

end Change

/-! ### The job queue -/

/-- An operation that queues nothing leaves the job queue alone. -/
theorem jobs_act {op : JsOp} (h : e.queues op = false) : (e.act op).jobs = e.jobs := by
  have hsettled {promise : ℕ} (state : PromiseState)
      (h : (e.promises promise).reactions = []) : (e.settle promise state).jobs = e.jobs := by
    rw [settle, h]
    exact List.append_nil _
  have hhandled (promise : ℕ) : (e.setHandled promise).jobs = e.jobs := by
    simp only [setHandled]
    split
    · split <;> rfl
    · rfl
  cases op with
  | queueMicrotask derived => cases h
  | collect => rfl
  | setHandled promise => exact hhandled promise
  | resolve promise =>
    cases hs : (e.promises promise).state with
    | pending =>
      rw [act, resolve, hs]
      exact hsettled _ (by simpa [queues, hs] using h)
    | _ => rw [act, resolve, hs]
  | reject promise reason =>
    cases hs : (e.promises promise).state with
    | pending =>
      rw [act, reject, hs]
      dsimp only
      split <;> exact hsettled (.rejected reason) (by simpa [queues, hs] using h)
    | _ => rw [act, reject, hs]
  | addReactions promise derived =>
    cases hs : (e.promises promise).state with
    | pending =>
      rw [act, addReactions, hs]
      exact hhandled promise
    | _ => simp [queues, hs] at h

/-- The pending exception is left alone. -/
theorem exception_act (op : JsOp) : (e.act op).exception = e.exception := by
  have hhandled (promise : ℕ) : (e.setHandled promise).exception = e.exception := by
    simp only [setHandled]
    split
    · split <;> rfl
    · rfl
  cases op with
  | queueMicrotask derived | collect => rfl
  | setHandled promise => exact hhandled promise
  | resolve promise =>
    rw [act, resolve]
    split <;> rfl
  | reject promise reason =>
    rw [act, reject]
    split
    · split <;> rfl
    · rfl
  | addReactions promise derived =>
    rw [act, addReactions]
    split <;> exact hhandled promise

end Engine

end Js
