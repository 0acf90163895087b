import StarlingMonkey.WebStreams.Writable.Reactions

/-!
# Runs of a writable stream with author code inside the operations

`writableSystem` is the stream as a system whose operations call out, and `writableMachine` the
machine whose events come with the scripts they call out to: trees of operations, nested to any
depth. At each call out it is checked that the requests, the operations in flight and the queue
agree, so that a run in which that fails aborts.
-/

namespace WebStreams

open Ledger

variable {χ F : Type}

namespace WritableStream

variable {s t : WritableStream χ F}

instance (s : WritableStream χ F) : Decidable s.Requests :=
  decidable_of_iff (¬ (s.inFlightWriteRequest.isSome ∧ s.inFlightCloseRequest.isSome) ∧
      (s.state = .writable → s.values.countP QueueValue.isChunk =
        s.writeRequests.length + s.inFlightWriteRequest.toList.length) ∧
      (s.state = .writable →
        s.closeRequest.isSome = s.values.getLast?.any (fun v => !v.isChunk) ∧
          ∀ v ∈ s.values.dropLast, v.isChunk = true) ∧
      (s.state = .closed ∨ s.state = .errored → s.writeRequests = [] ∧
        s.inFlightWriteRequest = none ∧ s.inFlightCloseRequest = none ∧
          s.pendingAbortRequest = none) ∧
      (s.state = .closed ∨ s.state = .errored ∧ s.abortPending = none ∧ s.hand = [] →
        s.closeRequest = none))
    ⟨fun ⟨h₁, h₂, h₃, h₄, h₅⟩ => ⟨h₁, h₂, h₃, h₄, h₅⟩,
      fun ⟨h₁, h₂, h₃, h₄, h₅⟩ => ⟨h₁, h₂, h₃, h₄, h₅⟩⟩

/-- The values that are queued, when the stream is writable. -/
theorem Sound.values_eq (h : s.Sound) (hs : s.state = .writable) : ∃ cs : List χ,
    cs.length = s.writeRequests.length + s.inFlightWriteRequest.toList.length ∧
    s.values = cs.map .chunk ++ if s.closeRequest = none then [] else [.closeSentinel] := by
  obtain ⟨rest, hlength, -, hqueue⟩ := (h.flowing hs).queue
  cases hw : s.inFlightWriteRequest with
  | none =>
    rw [hw] at hqueue
    exact ⟨rest, hlength.symm, hqueue⟩
  | some p =>
    -- the chunk in flight is still queued
    obtain ⟨-, -, c, vs, hvalues⟩ := h.core.flightWrite (by rw [hw]; rintro ⟨⟩)
    rw [hw, hvalues] at hqueue
    refine ⟨c :: rest, by simp [hlength], ?_⟩
    rw [hvalues, show vs = _ from hqueue]
    rfl

/-- **A sound stream** keeps its requests, its operations in flight and its queue in step. -/
theorem Sound.requests (h : s.Sound) : s.Requests where
  single := by
    rintro ⟨hwrite, hclose⟩
    rcases h.core.single with hnone | hnone
    · simp [hnone] at hwrite
    · simp [hnone] at hclose
  chunks := fun hs => by
    obtain ⟨cs, hlength, hvalues⟩ := h.values_eq hs
    rw [hvalues, ← hlength, List.countP_append, List.countP_map]
    split <;> simp [Function.comp_def, QueueValue.isChunk]
  sentinel := fun hs => by
    obtain ⟨cs, -, hvalues⟩ := h.values_eq hs
    rw [hvalues]
    cases hc : s.closeRequest with
    | none =>
      simp only [if_true, List.append_nil, List.getLast?_map, Option.any_map]
      refine ⟨by cases cs.getLast? <;> rfl, fun v hv => ?_⟩
      obtain ⟨c, -, rfl⟩ := List.mem_map.mp (List.dropLast_subset _ hv)
      rfl
    | some p =>
      simp only [reduceCtorEq, if_false, List.getLast?_concat, List.dropLast_concat]
      refine ⟨rfl, fun v hv => ?_⟩
      obtain ⟨c, -, rfl⟩ := List.mem_map.mp hv
      rfl
  ended := fun hs => by
    have hlive : s.isLive = false := by
      rcases hs with hs | hs <;> simp [isLive, hs]
    obtain ⟨-, hwrites, -, hpending⟩ := h.core.ended hlive
    refine ⟨hwrites, ?_, ?_, hpending⟩
    · by_contra hne
      rw [(h.core.flightWrite hne).2.1] at hlive
      cases hlive
    · by_contra hne
      rw [(h.core.flightClose hne).2.1] at hlive
      cases hlive
  close := fun hs => by
    rcases hs with hs | ⟨hs, hpending, hhand⟩
    · exact (h.core.closed hs).1
    · exact h.core.errored hs hpending hhand

end WritableStream

/-- The writable stream as a system whose operations call out. -/
def writableSystem (χ F : Type) [SizeOrder F] : CallingOut WritableAbort JsError
    (WritableStream χ F) (WritableOp χ) (WritableCallback χ) (Except JsError F) where
  perform := fun env s op => s.perform env op
  watch := fun _ s => if s.Requests then none else some .watched

/-- What author code does when an event calls out. -/
abbrev WritableScripts (χ F : Type) := WritableCallback χ → WritableStream χ F →
  Script (WritableStream χ F) (WritableOp χ) (WritableCallback χ) (Except JsError F)

/-- The writable stream, each event with the author code it calls out to. -/
def writableMachine (χ F : Type) [SizeOrder F] : Machine WritableAbort JsError
    (WritableStream χ F) (WritableEvent χ × WritableScripts χ F) :=
  ⟨fun s e => s.step ((writableSystem χ F).env e.2) e.1⟩

namespace WritableStream

variable [SizeOrder F] {s t : WritableStream χ F} {hwm : F} {size : Bool}

/-- Author code is obedient: it performs operations. -/
theorem obedient_scripts (scripts : WritableScripts χ F) :
    Obedient ((writableSystem χ F).env scripts) :=
  CallingOut.env_obeys (fun s _ => .refl s) (fun _ _ _ => .trans)
    (fun _ _ hs => if_pos hs.requests) (fun _ henv _ op hs => perform_reaches henv hs op) scripts

theorem sound_initial : (initial hwm size : WritableStream χ F).Sound := by
  constructor
  · exact {
      single := .inl rfl
      flightWrite := fun hne => absurd rfl hne
      flightClose := fun hne => absurd rfl hne
      ended := by rintro ⟨⟩
      closed := by rintro ⟨⟩
      errored := by rintro ⟨⟩
      start := rfl
      writePending := by rintro ⟨⟩
      closePending := by rintro ⟨⟩
      abortPending := fun hne => absurd rfl hne
      hand := fun hne => absurd rfl hne
      ledger := by simp [ledger, outstanding, initial]
      history := ⟨.singleton _, rfl⟩
      stored := fun _ => rfl
      disciplined := disciplined_nil
      unsettled := fun _ => rfl
      aborted := by rintro ⟨⟩
      requested := by intros; contradiction
      fulfilled := by intros; contradiction
      numbers := ⟨.nil, (by intros; contradiction)⟩
      calls := fun _ => ⟨Nat.zero_le _, .slnil⟩ }
  · intro _
    exact {
      abort := rfl
      algorithms := .inl rfl
      started := by rintro ⟨⟩
      queue := ⟨[], rfl, rfl, rfl⟩
      wrote := by intros; contradiction
      close := by rintro ⟨⟩ }

/-- **Runs** of a writable stream, whatever author code does inside the operations, keep it sound,
and no event aborts. -/
theorem author_run (hrun : (writableMachine χ F).Run (initial hwm size) t) :
    t.Sound ∧ ∀ e, ((writableMachine χ F).step t e).isPanic = false := by
  have hstep (s : WritableStream χ F) (hs : s.Sound) (e : WritableEvent χ × WritableScripts χ F) :
      ((writableMachine χ F).step s e).Sat (fun t => t.Sound) (fun t => t.Sound) fun _ => False :=
    step_sound (obedient_scripts e.2) hs e.1
  have ht : t.Sound := hrun.inv_of_sat sound_initial fun s e hs _ => hstep s hs e
  exact ⟨ht, fun e => (hstep t ht e).not_isPanic⟩

end WritableStream

end WebStreams
