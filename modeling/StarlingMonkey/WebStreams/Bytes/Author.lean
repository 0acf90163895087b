import StarlingMonkey.WebStreams.Bytes.Nested

/-!
# Runs of a byte stream with author code inside the operations

`byteSystem` is the byte stream as a system whose operations call out, and `byteAuthorMachine` the
machine whose events come with the environment they are read in. In a run whose environments are
lawful, author code performs operations wherever the controller calls out, nested to any depth.

* `author_run`: such a run keeps the stream sound and its reads accounted for.
* `Env.pulling`: a source whose `pull` performs an operation.
-/

namespace WebStreams

open ByteStream Ledger

/-- The byte stream as a system whose operations call out. -/
def byteSystem : Reentrant ByteAbort JsError ByteStream Env ByteOp Unit where
  perform := fun env s op => s.perform env op
  Within := fun R env => env.Within (R ())
  within_mono := fun hR h =>
    ⟨fun s t ht => hR _ _ _ (h.1 s t ht), fun s t ht => hR _ _ _ (h.2.1 s t ht),
      fun r s t ht => hR _ _ _ (h.2.2 r s t ht)⟩

/-- The code of the environment performs operations of the byte stream. -/
def Env.Lawful (env : Env) : Prop := byteSystem.Lawful (fun _ _ => True) env

theorem Env.Lawful.obeys {env : Env} (h : env.Lawful) : env.Within Obeys :=
  Reentrant.Lawful.within (S := byteSystem) (K := fun _ => Obeys) h (fun _ => Obeys.refl)
    (fun _ _ _ _ => Obeys.trans) fun env _ s op henv _ => by
      by_cases hs : Sound s
      · exact (perform_legal henv hs op).mono (fun _ ht _ => ht) (fun _ ht _ => ht) fun _ => id
      · exact .of_forall (fun _ h => absurd h hs) (fun _ h => absurd h hs) fun _ => trivial

/-- The source's `pull` performs an operation. -/
def Env.pulling (op : ByteOp) : Env :=
  { Env.quiet true true with pull := fun s => (s.perform (.quiet true true) op).caught }

theorem Env.lawful_pulling (op : ByteOp) : (Env.pulling op).Lawful := by
  have hquiet : (Env.quiet true true).Within Eq :=
    ⟨fun _ _ => Except.ok.inj, fun _ _ => Except.ok.inj, fun _ _ _ => Except.ok.inj⟩
  refine ⟨1, fun s t ht => ?_, fun s t ht => ?_, fun r s t ht => ?_⟩
  · exact Reentrant.Calls.perform_quiet (S := byteSystem) trivial hquiet ht
  · obtain rfl := Except.ok.inj ht
    exact .refl 1 () s
  · obtain rfl := Except.ok.inj ht
    exact .refl 1 () s

/-- The byte stream, each event with the environment it is read in. -/
def byteAuthorMachine : Machine ByteAbort JsError ByteStream (ByteEvent × Env) :=
  ⟨fun s e => step (fun alloc => { e.2 with alloc := alloc }) s e.1⟩

/-- Runs whose author code performs operations wherever the controller calls out. -/
abbrev ByteStream.AuthorRun (s t : ByteStream) : Prop :=
  byteAuthorMachine.RunWhere (fun _ e => e.2.Lawful) s t

variable {s t : ByteStream}

/-- A stream that is set up starts out sound, with no reads. -/
theorem sound_setUp {auto : Option ℕ} {hwm : Option ℚ} (h : setUp auto hwm = .ok s) :
    Sound s ∧ s.ledger = 0 := by
  obtain ⟨-, rfl⟩ := setUp_eq_ok h
  refine ⟨⟨by simp [initial], by simp [initial], fun _ => rfl, by simp [initial], .nil⟩, ?_⟩
  simp [ledger, waiting, initial]

/-- One event, whatever author code does inside it. -/
theorem author_step (h : Sound s) {e : ByteEvent × Env} (he : e.2.Lawful)
    (ht : (byteAuthorMachine.step s e).state? = some t) : StepPost s t e.1 :=
  (step_post (fun alloc => { e.2 with alloc := alloc }) (fun _ => he.obeys) h e.1).state? ht

/-- **Runs with nested author code** keep a stream sound and its reads accounted for. -/
theorem author_run {auto : Option ℕ} {hwm : Option ℚ} (h0 : setUp auto hwm = .ok s)
    (hrun : s.AuthorRun t) : Sound t ∧ t.ledger = 0 :=
  hrun.inv (I := fun u => Sound u ∧ u.ledger = 0) (sound_setUp h0) fun u e v h he hv => by
    have hpost := author_step h.1 he hv
    exact ⟨hpost.sound, hpost.ledger.trans h.2⟩

/-- What becomes of the reads of a byte stream: each was settled once or waits, and reads wait
only with the reader of a readable stream. -/
structure ByteReads (s : ByteStream) : Prop where
  once : (s.settled.map Prod.fst ++ s.waiting).Perm (List.range s.nextRequest)
  readable : s.readRequests.getD [] ≠ [] → s.state = .readable
  released : ∀ rd ∈ s.released, rd.requests = []

theorem Sound.reads (h : Sound s) (hl : s.ledger = 0) : ByteReads s where
  once := perm_range_of_balance (by rw [balance_append]; exact hl)
  readable hne := by
    by_contra hs
    exact hne (h.idle hs)
  released := h.released

end WebStreams
