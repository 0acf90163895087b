import StarlingMonkey.WebStreams.Default.Nested

/-!
# Runs of a default stream with author code inside the operations

`defaultSystem` is the default stream as a system whose operations call out, and
`defaultMachine` the machine whose events come with the environment they are read in. In a run
whose environments are lawful, author code performs operations wherever the controller calls out,
nested to any depth. The runs are `calm` when none of that code issues a read, except from the
chunk steps of a request.
-/

namespace WebStreams

open Ledger

variable {χ F : Type} [SizeNum F]

/-- The default stream as a system whose operations call out. -/
def defaultSystem (χ F : Type) [SizeNum F] : Reentrant DefaultAbort JsError (DefaultStream χ F)
    (DefaultEnv χ F) (DefaultOp χ) Callback where
  perform := fun env s op => s.perform env op
  Within := DefaultEnv.Within
  within_mono := fun hR h =>
    ⟨fun c s r t ht => hR _ _ _ (h.1 c s r t ht), fun s t ht => hR _ _ _ (h.2.1 s t ht),
      fun s t ht => hR _ _ _ (h.2.2.1 s t ht), fun r c s t ht => hR _ _ _ (h.2.2.2.1 r c s t ht),
      fun r s t ht => hR _ _ _ (h.2.2.2.2 r s t ht)⟩

/-- The code of the environment performs operations of the stream; if `calm`, it issues reads from
the chunk steps of a request only. -/
def DefaultEnv.Lawful (calm : Prop) (env : DefaultEnv χ F) : Prop :=
  (defaultSystem χ F).Lawful (fun k op => calm → op = .read → k.mayRead = true) env

theorem DefaultEnv.Lawful.obedient {calm : Prop} {env : DefaultEnv χ F} (h : env.Lawful calm) :
    DefaultStream.Obedient calm env :=
  Reentrant.Lawful.within (S := defaultSystem χ F)
    (K := fun k => DefaultStream.Obeys calm (k.mayRead = false)) h
    (fun _ => DefaultStream.Obeys.refl) (fun _ _ _ _ => DefaultStream.Obeys.trans)
    fun env k s op henv hop => by
      by_cases hs : s.Sound calm
      · refine (DefaultStream.perform_legal henv hs op fun hq hc hread => ?_).mono
          (fun _ ht _ => ht) (fun _ ht _ => ht) fun _ => id
        simp [hop hc hread] at hq
      · exact .of_forall (fun _ h => absurd h hs) (fun _ h => absurd h hs) fun _ => trivial

/-- The code does nothing, and every size is `1`. -/
def DefaultEnv.quiet (χ F : Type) [SizeNum F] : DefaultEnv χ F :=
  ⟨true, fun _ s => .ok (.ok SizeNum.one, s), .ok, .ok, fun _ _ => .ok, fun _ => .ok⟩

theorem DefaultEnv.within_quiet : (DefaultEnv.quiet χ F).Within fun _ => Eq :=
  ⟨fun _ _ _ _ ht => (Prod.mk.inj (Except.ok.inj ht)).2, fun _ _ => Except.ok.inj,
    fun _ _ => Except.ok.inj, fun _ _ _ _ => Except.ok.inj, fun _ _ _ => Except.ok.inj⟩

/-- The callbacks of one kind perform an operation. -/
def DefaultEnv.only (kind : Callback) (op : DefaultOp χ) : DefaultEnv χ F :=
  let run (k : Callback) (s : DefaultStream χ F) : Except DefaultAbort (DefaultStream χ F) :=
    if k = kind then (s.perform (.quiet χ F) op).caught else .ok s
  ⟨true, fun _ s => (run .size s).map (.ok SizeNum.one, ·), run .pull, run .cancel,
    fun _ _ => run .chunkSteps, fun _ => run .endSteps⟩

theorem DefaultEnv.lawful_only {calm : Prop} {kind : Callback} {op : DefaultOp χ}
    (hop : calm → op = .read → kind.mayRead = true) :
    (DefaultEnv.only kind op : DefaultEnv χ F).Lawful calm := by
  have hrun (k : Callback) (s t : DefaultStream χ F)
      (ht : (if k = kind then (s.perform (.quiet χ F) op).caught else Except.ok s) = .ok t) :
      (defaultSystem χ F).Calls (fun k op => calm → op = .read → k.mayRead = true) 1 k s t := by
    split_ifs at ht with hk
    · exact Reentrant.Calls.perform_quiet (S := defaultSystem χ F)
        (fun hc hread => hk ▸ hop hc hread) DefaultEnv.within_quiet ht
    · obtain rfl := Except.ok.inj ht
      exact .refl 1 k s
  refine ⟨1, fun c s r t ht => ?_, hrun .pull, hrun .cancel, fun _ _ => hrun .chunkSteps,
    fun _ => hrun .endSteps⟩
  cases hu : (if .size = kind then (s.perform (.quiet χ F) op).caught else Except.ok s) with
  | error p => simp [DefaultEnv.only, hu, Except.map] at ht
  | ok u =>
    simp only [DefaultEnv.only, hu, Except.map, Except.ok.injEq, Prod.mk.injEq] at ht
    obtain ⟨-, rfl⟩ := ht
    exact hrun .size s u hu

/-- The default stream, each event with the environment it is read in. -/
def defaultMachine (χ F : Type) [SizeNum F] :
    Machine DefaultAbort JsError (DefaultStream χ F) (DefaultEvent χ × DefaultEnv χ F) :=
  ⟨fun s e => s.step e.2 e.1⟩

/-- Runs whose author code performs operations wherever the controller calls out. -/
abbrev DefaultStream.AuthorRun (calm : Prop) (s t : DefaultStream χ F) : Prop :=
  (defaultMachine χ F).RunWhere (fun _ e => e.2.Lawful calm) s t

namespace DefaultStream

variable {calm : Prop} {s t : DefaultStream χ F} {hwm : F} {size : Bool}

theorem sound_initial : Sound calm (initial hwm size : DefaultStream χ F) :=
  ⟨fun _ => rfl, by simp [initial], .nil, fun _ hne => absurd rfl hne⟩

/-- One event, whatever author code does inside it. -/
theorem author_step (h : Sound calm s) {e : DefaultEvent χ × DefaultEnv χ F}
    (he : e.2.Lawful calm) (ht : ((defaultMachine χ F).step s e).state? = some t) :
    StepPost calm s t e.1 :=
  (step_post he.obedient h e.1).state? ht

/-- **Runs with nested author code** keep a stream sound and its reads accounted for; if `calm`,
reads and chunks flow. -/
theorem author_run (hrun : AuthorRun calm (initial hwm size) t) :
    Sound calm t ∧ t.held.ledger = 0 ∧
      (calm → Flow (initial hwm size : DefaultStream χ F).held t.held) := by
  refine hrun.inv (I := fun u => Sound calm u ∧ u.held.ledger = 0 ∧
    (calm → Flow (initial hwm size : DefaultStream χ F).held u.held))
    ⟨sound_initial, by simp [Held.ledger, held, waiting, initial], fun _ => ⟨_, _, _, _, .refl _⟩⟩
    fun u e v h he hv => ?_
  have hpost := author_step h.1 he hv
  refine ⟨hpost.sound, hpost.ledger.trans h.2.1, fun hc => ?_⟩
  obtain ⟨l, n, cs, dr, hf⟩ := h.2.2 hc
  obtain ⟨l', n', cs', dr', hf'⟩ := hpost.flow hc
  exact ⟨_, _, _, _, hf.trans hf' hpost.alive fun hs => absurd rfl hs⟩

/-- What becomes of the reads of a stream: each was settled once or waits, and reads wait only with
the reader of a readable stream. -/
structure Reads (s : DefaultStream χ F) : Prop where
  once : (s.settled.map Prod.fst ++ s.waiting).Perm (List.range s.nextRequest)
  readable : s.waiting ≠ [] → s.state = .readable
  released : ∀ rs ∈ s.released, rs = []

omit [SizeNum F] in
theorem Sound.reads (h : Sound calm s) (hl : s.held.ledger = 0) : Reads s where
  once := perm_range_of_balance (by rw [balance_append]; exact hl)
  readable hne := by
    by_contra hs
    exact hne (h.idle hs)
  released := h.released

/-- Reads are settled in the order they were issued, none waits while a chunk is queued, and the
chunks handed out, those discarded by an error or a cancellation and those queued are, in this
order, the chunks that came in. -/
structure InOrder (s : DefaultStream χ F) : Prop where
  order : s.settled.map Prod.fst ++ s.waiting = List.range s.nextRequest
  idle : s.waiting ≠ [] → s.queue = []
  chunks : s.supplied = chunksOf s.settled ++ s.dropped ++ s.queue.map Prod.fst
  dropped : s.dropped ≠ [] → s.state ≠ .readable

theorem Sound.inOrder (h : Sound calm s) (hc : calm)
    (hf : Flow (initial hwm size : DefaultStream χ F).held s.held) : InOrder s := by
  obtain ⟨l, n, cs, dr, hf⟩ := hf
  have hsettled : s.settled = l := hf.settled
  have hnext : s.nextRequest = n := by simpa [held, initial] using hf.next
  have hdropped : s.dropped = dr := hf.dropped
  refine ⟨?_, fun hne => List.map_eq_nil_iff.mp (h.drained hc hne), ?_, fun hne => ?_⟩
  · rw [hsettled, hnext, List.range_eq_range']
    exact hf.line.symm
  · have hsupplied : s.supplied = cs := hf.supplied
    have hgoods : cs = chunksOf l ++ dr ++ s.values := by simpa [held, initial] using hf.goods
    rw [hsupplied, hsettled, hdropped]
    exact hgoods
  · exact hf.drop (hdropped ▸ hne)

end DefaultStream

end WebStreams
