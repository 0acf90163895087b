import Mathlib.Logic.Function.Basic
import StarlingMonkey.Lib.Run

/-!
# Startup of a wasm instance

The requests of an instance share one runtime, whose content script is evaluated by an event loop of
its own. The first request drives that loop, from wherever the host lets it go on, and the others
wait; a request the host drops hands the loop back.

* `Instance` holds the thread-locals `RUNTIME`, `STARTUP_FAILURE` and `STARTUP`, and what every
  request waits for. The listeners of `STARTUP_CHANGED` are the requests that wait for it.
* `Orderly` is the invariant, and `Orderly.step` says that every event keeps it.
* `startup_kept` is what holds of every run. The loop may run out of work while the script is still
  waiting for something; the requests then go on without it (`startup_not_evaluated`).
-/

namespace Serve

/-- `Startup`, an invocation being its number. -/
inductive Startup where
  | pending (invocation : ℕ)
  | driving
  | done
deriving DecidableEq, Repr

/-- What has become of the evaluation of the content script, as `ScriptEvaluation` sees it. -/
inductive Evaluation where
  | pending
  | fulfilled
  /-- Its top-level `await` rejected, with the message `rejection` makes of it. -/
  | rejected (message : String)
deriving DecidableEq, Repr

/-- Where a request is in `handle`. -/
inductive RequestPhase where
  /-- There is no such request. -/
  | absent
  /-- It was not polled. -/
  | arrived
  /-- It is answered with an error, as there is no runtime. -/
  | refused
  /-- It awaits `drive_startup`. -/
  | driving (invocation : ℕ)
  /-- It awaits its listener, which may have been notified. -/
  | waiting (notified : Bool)
  /-- `ensure_started` returned `Ok`, or `Err`. -/
  | returned (ok : Bool)
  /-- The host dropped it. -/
  | dropped
deriving DecidableEq, Repr

/-- What becomes of the invocation in the end. -/
inductive HandedTo where
  /-- `keep_startup_loop_running` gets it. -/
  | kept
  /-- Its futures are cancelled. -/
  | cancelled
deriving DecidableEq, Repr

/-- What `start_runtime` sets up: the invocation, and whether the script is evaluated already. -/
structure Boot where
  invocation : ℕ
  finished : Bool
deriving DecidableEq, Repr

/-- How far a poll takes `drive_startup`. -/
inductive Turn where
  /-- It awaits something. -/
  | suspended
  /-- It returns, as the evaluation is finished. -/
  | stopped
  /-- It returns, as the loop has no work left, or a step requested it. -/
  | ended
deriving DecidableEq, Repr

/-- An instance. -/
structure Instance where
  /-- `RUNTIME` is set. -/
  runtime : Bool
  /-- `STARTUP_FAILURE`. -/
  failure : Option String
  /-- `STARTUP`. -/
  startup : Startup
  evaluation : Evaluation
  phase : ℕ → RequestPhase
  /-- The invocation of the startup. -/
  invocation : ℕ
  /-- What became of it. -/
  handed : List (ℕ × HandedTo)
  /-- The loop ended while the script was still waiting. -/
  ranOut : Bool
  /-- What was logged about failures. -/
  log : List String

/-- What happens to an instance. -/
inductive InstanceEvent where
  /-- A request arrives. -/
  | arrive (r : ℕ)
  /-- A request is polled; `boot` is what `start_runtime` would do, and `turn` what
  `drive_startup` would. -/
  | poll (r : ℕ) (boot : Except String Boot) (turn : Turn)
  /-- The evaluation finishes, or rejects. -/
  | settle (rejection : Option String)
  /-- The host drops a request. -/
  | drop (r : ℕ)

namespace Instance

/-- A new instance. -/
def initial : Instance :=
  ⟨false, none, .done, .pending, fun _ => .absent, 0, [], false, []⟩

/-- A request goes on to another place. -/
def setPhase (s : Instance) (r : ℕ) (phase : RequestPhase) : Instance :=
  { s with phase := Function.update s.phase r phase }

/-- `STARTUP_CHANGED.notify(usize::MAX)`. -/
def notify (s : Instance) : Instance :=
  { s with
    phase := fun r =>
      match s.phase r with
      | .waiting _ => .waiting true
      | phase => phase }

/-- `runtime`: whether there is one. -/
def bootRuntime (s : Instance) (boot : Except String Boot) : Instance × Bool :=
  if s.runtime then (s, true)
  else
    match s.failure with
    | some _ => (s, false)
    | none =>
      match boot with
      | .error message =>
        ({ s with
          failure := some message
          log := s.log ++ ["serve: the runtime could not be started: " ++ message] }, false)
      | .ok boot =>
        ({ s with
          runtime := true
          startup := .pending boot.invocation
          invocation := boot.invocation
          evaluation := if boot.finished then .fulfilled else .pending }, true)

/-- `ensure_started`, from where the outcome of the evaluation is known. -/
def conclude (s : Instance) (r invocation : ℕ) (ok : Bool) : Instance :=
  let s := (notify { s with startup := .done }).setPhase r (.returned ok)
  { s with handed := s.handed ++ [(invocation, if ok then .kept else .cancelled)] }

/-- `ensure_started`, from the end of `drive_startup` on. -/
def finish (s : Instance) (r invocation : ℕ) : Instance :=
  match s.evaluation with
  | .rejected message =>
    { s with
      failure := some message
      log := s.log ++
        ["serve: the content script's top-level `await` rejected: " ++ message] }.conclude
        r invocation false
  | .fulfilled => s.conclude r invocation true
  | .pending => { s with ranOut := true }.conclude r invocation true

/-- `ensure_started`, in `drive_startup`. -/
def drive (s : Instance) (r invocation : ℕ) : Turn → Instance
  | .suspended => s.setPhase r (.driving invocation)
  | .stopped =>
    if s.evaluation = .pending then s.setPhase r (.driving invocation) else s.finish r invocation
  | .ended => s.finish r invocation

/-- `ensure_started`, a round of its loop. -/
def ensureStarted (s : Instance) (r : ℕ) (turn : Turn) : Instance :=
  match s.startup with
  | .pending invocation => { s with startup := .driving }.drive r invocation turn
  | .driving => s.setPhase r (.waiting false)
  | .done => s.setPhase r (.returned s.failure.isNone)

/-- A request is polled. -/
def poll (s : Instance) (r : ℕ) (boot : Except String Boot) (turn : Turn) : Instance :=
  match s.phase r with
  | .arrived =>
    let (s, up) := s.bootRuntime boot
    if up then s.ensureStarted r turn else s.setPhase r .refused
  | .driving invocation => s.drive r invocation turn
  | .waiting true => s.ensureStarted r turn
  | _ => s

/-- A request is dropped, and its `Driving` with it. -/
def dropRequest (s : Instance) (r : ℕ) : Instance :=
  match s.phase r with
  | .driving invocation =>
    (notify { s with startup := .pending invocation }).setPhase r .dropped
  | .absent => s
  | _ => s.setPhase r .dropped

/-- One event. -/
def step (s : Instance) : InstanceEvent → Instance
  | .arrive r => if s.phase r = .absent then s.setPhase r .arrived else s
  | .poll r boot turn => s.poll r boot turn
  | .settle rejection =>
    if s.runtime && s.evaluation = .pending then
      { s with
        evaluation :=
          match rejection with
          | none => .fulfilled
          | some message => .rejected message }
    else s
  | .drop r => s.dropRequest r

end Instance

/-- An instance as a machine. -/
def instanceMachine : Machine Empty Empty Instance InstanceEvent := ⟨fun s e => .ok (s.step e)⟩

/-! ### The invariant -/

namespace Instance

/-- What holds of the thread-locals. -/
structure Based (s : Instance) : Prop where
  idle : s.runtime = false →
    s.startup = .done ∧ s.handed = [] ∧ s.evaluation = .pending ∧ s.ranOut = false
  same : ∀ i, s.startup = .pending i → i = s.invocation
  undone : s.startup ≠ .done → s.handed = [] ∧ s.failure = none ∧ s.ranOut = false
  handed : s.runtime = true → s.startup = .done →
    s.handed = [(s.invocation, if s.failure.isNone then .kept else .cancelled)]
  evaluated : s.runtime = true → s.startup = .done → s.failure = none →
    s.evaluation = .fulfilled ∨ s.ranOut = true
  failed : s.runtime = true → ∀ message, s.failure = some message → s.evaluation = .rejected message
  rejected : ∀ message, s.evaluation = .rejected message → s.startup = .done → s.ranOut = false →
    s.failure = some message
  logged : s.log.length = if s.failure.isSome then 1 else 0

/-- Where a request may be. -/
def Fits (s : Instance) : RequestPhase → Prop
  | .driving i => s.startup = .driving ∧ i = s.invocation
  | .waiting notified => s.runtime = true ∧ (notified = false → s.startup = .driving)
  | .returned ok => s.runtime = true ∧ s.startup = .done ∧ ok = s.failure.isNone
  | _ => True

/-- **The invariant** of an instance. -/
structure Orderly (s : Instance) : Prop extends Based s where
  fits : ∀ r, s.Fits (s.phase r)
  one_driver : ∀ r r' i i', s.phase r = .driving i → s.phase r' = .driving i' → r = r'
  driver : s.startup = .driving → ∃ r i, s.phase r = .driving i

/-- A request has the invocation, and is to say what comes next. -/
structure Taken (s : Instance) (r i : ℕ) : Prop extends Based s where
  running : s.runtime = true
  driving : s.startup = .driving
  mine : i = s.invocation
  others : ∀ r', r' ≠ r → s.Fits (s.phase r') ∧ ∀ i', s.phase r' ≠ .driving i'

section Steps

variable {s : Instance} {r i : ℕ} {phase : RequestPhase}

@[simp] theorem phase_setPhase (s : Instance) (r r' : ℕ) (phase : RequestPhase) :
    (s.setPhase r phase).phase r' = if r' = r then phase else s.phase r' :=
  Function.update_apply ..

theorem phase_notify (s : Instance) (r : ℕ) :
    s.notify.phase r = s.phase r ∨
      ∃ b, s.phase r = .waiting b ∧ s.notify.phase r = .waiting true := by
  cases h : s.phase r with
  | waiting b => exact .inr ⟨b, rfl, by simp only [notify, h]⟩
  | _ => exact .inl (by simp only [notify, h])

theorem Orderly.setPhase (h : s.Orderly) (hfits : s.Fits phase) (hold : ∀ i, s.phase r ≠ .driving i)
    (hnew : ∀ i, phase ≠ .driving i) : (s.setPhase r phase).Orderly := by
  refine ⟨⟨h.idle, h.same, h.undone, h.handed, h.evaluated, h.failed, h.rejected, h.logged⟩,
    fun r' => ?_, fun r₁ r₂ i₁ i₂ h₁ h₂ => ?_, fun hdriving => ?_⟩
  · rw [phase_setPhase]
    split_ifs
    · exact hfits
    · exact h.fits r'
  · rw [phase_setPhase] at h₁ h₂
    split_ifs at h₁ h₂ with heq₁ heq₂ heq₂
    · exact heq₁.trans heq₂.symm
    · exact absurd h₁ (hnew i₁)
    · exact absurd h₂ (hnew i₂)
    · exact h.one_driver r₁ r₂ i₁ i₂ h₁ h₂
  · obtain ⟨r', i, hr'⟩ := h.driver hdriving
    refine ⟨r', i, ?_⟩
    rw [phase_setPhase, if_neg, hr']
    rintro rfl
    exact hold i hr'

/-- The driver has the invocation. -/
theorem Orderly.taken (h : s.Orderly) (hr : s.phase r = .driving i) : s.Taken r i := by
  have hfits := h.fits r
  rw [hr] at hfits
  have hrunning : s.runtime = true := by
    by_contra hnot
    have hdone := (h.idle (Bool.eq_false_of_not_eq_true hnot)).1
    rw [hfits.1] at hdone
    cases hdone
  refine ⟨h.toBased, hrunning, hfits.1, hfits.2, fun r' hne => ⟨h.fits r', fun i' hr' => ?_⟩⟩
  exact hne (h.one_driver r' r i' i hr' hr)

/-- A request takes the invocation over. -/
theorem Orderly.take (h : s.Orderly) (hi : s.startup = .pending i) :
    { s with startup := .driving }.Taken r i := by
  have hne : s.startup ≠ .done := by
    rw [hi]
    rintro ⟨⟩
  have hrunning : s.runtime = true := by
    by_contra hnot
    exact hne (h.idle (Bool.eq_false_of_not_eq_true hnot)).1
  refine ⟨⟨fun hnot => ?_, ?_, fun _ => h.undone hne, ?_, ?_, h.failed, ?_, h.logged⟩, hrunning,
    rfl, h.same i hi, fun r' _ => ?_⟩
  · exact absurd (hrunning.symm.trans hnot) (by simp)
  · rintro j ⟨⟩
  · rintro - ⟨⟩
  · rintro - ⟨⟩
  · rintro message - ⟨⟩
  · have hfits := h.fits r'
    cases hr' : s.phase r' with
    | driving i' =>
      rw [hr', Fits, hi] at hfits
      cases hfits.1
    | waiting b =>
      rw [hr'] at hfits
      exact ⟨⟨hfits.1, fun _ => rfl⟩, by rintro i' ⟨⟩⟩
    | returned ok =>
      rw [hr', Fits, hi] at hfits
      cases hfits.2.1
    | _ => exact ⟨trivial, by rintro i' ⟨⟩⟩

theorem Taken.suspend (h : s.Taken r i) : (s.setPhase r (.driving i)).Orderly := by
  refine ⟨⟨h.idle, h.same, h.undone, h.handed, h.evaluated, h.failed, h.rejected, h.logged⟩,
    fun r' => ?_, fun r₁ r₂ i₁ i₂ h₁ h₂ => ?_, fun _ => ⟨r, i, ?_⟩⟩
  · rw [phase_setPhase]
    split_ifs with heq
    · exact ⟨h.driving, h.mine⟩
    · exact (h.others r' heq).1
  · rw [phase_setPhase] at h₁ h₂
    split_ifs at h₁ h₂ with heq₁ heq₂ heq₂
    · exact heq₁.trans heq₂.symm
    · exact absurd h₂ ((h.others r₂ heq₂).2 i₂)
    · exact absurd h₁ ((h.others r₁ heq₁).2 i₁)
    · exact absurd h₁ ((h.others r₁ heq₁).2 i₁)
  · rw [phase_setPhase, if_pos rfl]

/-- Where the others are once they are notified. -/
private theorem Taken.fits_notify (h : s.Taken r i) {s' : Instance} {r' : ℕ} (hne : r' ≠ r)
    (hrunning : s'.runtime = true) :
    s'.Fits (s.notify.phase r') ∧ ∀ i', s.notify.phase r' ≠ .driving i' := by
  obtain ⟨hfits, hnot⟩ := h.others r' hne
  rcases s.phase_notify r' with heq | ⟨b, -, heq⟩
  · rw [heq]
    refine ⟨?_, hnot⟩
    cases hr' : s.phase r' with
    | driving i' => exact absurd hr' (hnot i')
    | waiting b =>
      have hwaiting : s.notify.phase r' = .waiting true := by simp only [notify, hr']
      rw [heq, hr', RequestPhase.waiting.injEq] at hwaiting
      subst hwaiting
      exact ⟨hrunning, by rintro ⟨⟩⟩
    | returned ok =>
      rw [hr', Fits, h.driving] at hfits
      cases hfits.2.1
    | _ => trivial
  · rw [heq]
    exact ⟨⟨hrunning, by rintro ⟨⟩⟩, by rintro i' ⟨⟩⟩

/-- The driver gives the invocation away, and notifies the others. -/
private theorem Taken.leave (h : s.Taken r i) (phase : RequestPhase) {s' : Instance}
    (hbased : s'.Based) (hrunning : s'.runtime = true) (hphase : ∀ r', s'.phase r' =
      if r' = r then phase else s.notify.phase r')
    (hfits : s'.Fits phase) (hnew : ∀ i, phase ≠ .driving i) (hleft : s'.startup ≠ .driving) :
    s'.Orderly := by
  refine ⟨hbased, fun r' => ?_, fun r₁ r₂ i₁ i₂ h₁ _ => ?_, fun hdriving => absurd hdriving hleft⟩
  · rw [hphase]
    split_ifs with heq
    · exact hfits
    · exact (h.fits_notify heq hrunning).1
  · rw [hphase] at h₁
    split_ifs at h₁ with heq
    · exact absurd h₁ (hnew i₁)
    · have hother : s'.Fits _ ∧ _ := h.fits_notify heq hrunning
      exact absurd h₁ (hother.2 i₁)

/-- The driver hands the invocation on. -/
private theorem Taken.conclude (h : s.Taken r i) {s' : Instance} {ok : Bool}
    (hphase : s'.phase = s.phase) (hrunning : s'.runtime = true)
    (hinvocation : s'.invocation = s.invocation) (hhanded : s'.handed = [])
    (hok : ok = s'.failure.isNone)
    (hevaluated : s'.failure = none → s'.evaluation = .fulfilled ∨ s'.ranOut = true)
    (hfailed : ∀ message, s'.failure = some message → s'.evaluation = .rejected message)
    (hrejected : ∀ message, s'.evaluation = .rejected message → s'.ranOut = false →
      s'.failure = some message)
    (hlogged : s'.log.length = if s'.failure.isSome then 1 else 0) :
    (s'.conclude r i ok).Orderly := by
  refine h.leave (.returned ok) ⟨fun hnot => ?_, ?_, fun hne => absurd rfl hne,
    fun _ _ => ?_, fun _ _ => hevaluated, fun _ => hfailed, fun message hmessage _ => ?_, hlogged⟩
    hrunning (fun r' => ?_) ⟨hrunning, rfl, hok⟩ (by rintro i ⟨⟩) (by rintro ⟨⟩)
  · exact absurd (hrunning.symm.trans hnot) (by simp)
  · rintro j ⟨⟩
  · show s'.handed ++ [(i, if ok then HandedTo.kept else .cancelled)] =
      [(s'.invocation, if s'.failure.isNone then .kept else .cancelled)]
    rw [hhanded, hinvocation, ← h.mine, hok]
    rfl
  · exact hrejected message hmessage
  · show (Instance.setPhase _ r (.returned ok)).phase r' = _
    rw [phase_setPhase]
    simp only [notify, hphase]

/-- **The end of the evaluation.** -/
theorem Taken.finish (h : s.Taken r i) : (s.finish r i).Orderly := by
  obtain ⟨hhanded, hfailure, -⟩ := h.undone (by rw [h.driving]; rintro ⟨⟩)
  have hlogged := h.logged
  have hnone : ∀ message, s.failure ≠ some message := by simp [hfailure]
  rcases hevaluation : s.evaluation with _ | _ | message
  · rw [show s.finish r i = { s with ranOut := true }.conclude r i true by
      simp only [Instance.finish, hevaluation]]
    refine h.conclude rfl h.running rfl hhanded ?_ (fun _ => .inr rfl) ?_ ?_ hlogged
    · simp [hfailure]
    · exact fun message hmessage => absurd hmessage (hnone message)
    · rintro message - ⟨⟩
  · rw [show s.finish r i = s.conclude r i true by simp only [Instance.finish, hevaluation]]
    refine h.conclude rfl h.running rfl hhanded ?_ (fun _ => .inl hevaluation) ?_ ?_ hlogged
    · simp [hfailure]
    · exact fun message hmessage => absurd hmessage (hnone message)
    · intro message hmessage
      rw [hevaluation] at hmessage
      cases hmessage
  · let s' : Instance :=
      { s with
        failure := some message
        log := s.log ++ ["serve: the content script's top-level `await` rejected: " ++ message] }
    rw [show s.finish r i = s'.conclude r i false by simp only [Instance.finish, hevaluation, s']]
    refine h.conclude rfl h.running rfl hhanded rfl ?_ ?_ ?_ ?_
    · rintro ⟨⟩
    · rintro message' ⟨⟩
      exact hevaluation
    · intro message' hmessage _
      exact congrArg some (Evaluation.rejected.inj (hevaluation.symm.trans hmessage))
    · rw [hfailure] at hlogged
      simp [s', List.length_eq_zero_iff.mp hlogged]

/-- **A driver that is dropped** hands the invocation back. -/
theorem Taken.handBack (h : s.Taken r i) :
    ((notify { s with startup := .pending i }).setPhase r .dropped).Orderly := by
  have hundone := h.undone (by rw [h.driving]; rintro ⟨⟩)
  refine h.leave .dropped ⟨fun hnot => ?_, ?_, fun _ => hundone, ?_, ?_, h.failed, ?_,
    h.logged⟩ h.running (fun r' => ?_) trivial (by rintro i ⟨⟩) (by rintro ⟨⟩)
  · exact absurd (h.running.symm.trans hnot) (by simp)
  · rintro j ⟨⟩
    exact h.mine
  · rintro - ⟨⟩
  · rintro - ⟨⟩
  · rintro message - ⟨⟩
  · rw [phase_setPhase]
    rfl

/-! ### Every event -/

theorem Taken.drive (h : s.Taken r i) (turn : Turn) : (s.drive r i turn).Orderly := by
  cases turn with
  | suspended => exact h.suspend
  | stopped =>
    rw [Instance.drive]
    split_ifs
    · exact h.suspend
    · exact h.finish
  | ended => exact h.finish

theorem Orderly.ensureStarted (h : s.Orderly) (hrunning : s.runtime = true)
    (hr : ∀ i, s.phase r ≠ .driving i) (turn : Turn) : (s.ensureStarted r turn).Orderly := by
  rcases hstartup : s.startup with i | _ | _
  · rw [show s.ensureStarted r turn = { s with startup := .driving }.drive r i turn by
      simp only [Instance.ensureStarted, hstartup]]
    exact (h.take hstartup).drive turn
  · rw [show s.ensureStarted r turn = s.setPhase r (.waiting false) by
      simp only [Instance.ensureStarted, hstartup]]
    exact h.setPhase ⟨hrunning, fun _ => hstartup⟩ hr (by rintro i ⟨⟩)
  · rw [show s.ensureStarted r turn = s.setPhase r (.returned s.failure.isNone) by
      simp only [Instance.ensureStarted, hstartup]]
    exact h.setPhase ⟨hrunning, hstartup, rfl⟩ hr (by rintro i ⟨⟩)

/-- Before there is a runtime, no request got further than to ask for it. -/
theorem Orderly.phase_idle (h : s.Orderly) (hidle : s.runtime = false) (s' : Instance) (r : ℕ) :
    s'.Fits (s.phase r) ∧ ∀ i, s.phase r ≠ .driving i := by
  have hfits := h.fits r
  have hdone := (h.idle hidle).1
  cases hr : s.phase r with
  | driving i =>
    rw [hr, Fits, hdone] at hfits
    cases hfits.1
  | waiting b =>
    rw [hr, Fits, hidle] at hfits
    cases hfits.1
  | returned ok =>
    rw [hr, Fits, hidle] at hfits
    cases hfits.1
  | _ => exact ⟨trivial, by rintro i ⟨⟩⟩

/-- A runtime that could not be started. -/
private theorem Orderly.unbooted (h : s.Orderly) (hidle : s.runtime = false)
    (hfailure : s.failure = none) (message line : String) :
    { s with failure := some message, log := s.log ++ [line] }.Orderly := by
  obtain ⟨hdone, -, hevaluation, -⟩ := h.idle hidle
  have hlogged := h.logged
  have hnot : s.runtime ≠ true := by simp [hidle]
  rw [hfailure] at hlogged
  refine ⟨⟨h.idle, h.same, fun hne => absurd hdone hne, fun hrun => absurd hrun hnot,
    fun hrun => absurd hrun hnot, fun hrun => absurd hrun hnot, fun message' hmessage => ?_, ?_⟩,
    fun r => (h.phase_idle hidle _ r).1, h.one_driver, h.driver⟩
  · exact absurd (hevaluation.symm.trans hmessage) (by simp)
  · simp [List.length_eq_zero_iff.mp hlogged]

/-- A runtime that was started. -/
private theorem Orderly.booted (h : s.Orderly) (hidle : s.runtime = false)
    (hfailure : s.failure = none) (boot : Boot) :
    { s with
      runtime := true
      startup := .pending boot.invocation
      invocation := boot.invocation
      evaluation := if boot.finished then .fulfilled else .pending }.Orderly := by
  obtain ⟨-, hhanded, -, hranOut⟩ := h.idle hidle
  refine ⟨⟨?_, ?_, fun _ => ⟨hhanded, hfailure, hranOut⟩, ?_, ?_, fun _ message hmessage => ?_,
    fun message hmessage => ?_, h.logged⟩, fun r => (h.phase_idle hidle _ r).1,
    fun r r' i i' hr => absurd hr ((h.phase_idle hidle s r).2 i), ?_⟩
  · rintro ⟨⟩
  · rintro i ⟨⟩
    rfl
  · rintro - ⟨⟩
  · rintro - ⟨⟩
  · exact absurd (hfailure.symm.trans hmessage) (by simp)
  · obtain ⟨invocation, finished⟩ := boot
    cases finished <;> cases hmessage
  · rintro ⟨⟩

/-- **`runtime`** starts one, if there can be one. -/
theorem Orderly.bootRuntime (h : s.Orderly) (boot : Except String Boot) :
    ∃ s' up, s.bootRuntime boot = (s', up) ∧ s'.Orderly ∧ s'.phase = s.phase ∧
      (up = true → s'.runtime = true) := by
  cases hrunning : s.runtime with
  | true => exact ⟨s, true, by simp only [Instance.bootRuntime, hrunning, if_true], h, rfl,
      fun _ => hrunning⟩
  | false =>
    rcases hfailure : s.failure with _ | message
    · cases boot with
      | error message =>
        let line := "serve: the runtime could not be started: " ++ message
        refine ⟨_, false, ?_, h.unbooted hrunning hfailure message line, rfl, by rintro ⟨⟩⟩
        simp only [Instance.bootRuntime, hrunning, hfailure, Bool.false_eq_true, if_false, line]
      | ok boot =>
        refine ⟨_, true, ?_, h.booted hrunning hfailure boot, rfl, fun _ => rfl⟩
        simp only [Instance.bootRuntime, hrunning, hfailure, Bool.false_eq_true, if_false]
    · refine ⟨s, false, ?_, h, rfl, by rintro ⟨⟩⟩
      simp only [Instance.bootRuntime, hrunning, hfailure, Bool.false_eq_true, if_false]

theorem Orderly.poll (h : s.Orderly) (r : ℕ) (boot : Except String Boot) (turn : Turn) :
    (s.poll r boot turn).Orderly := by
  cases hr : s.phase r with
  | arrived =>
    obtain ⟨s', up, heq, h', hphase, hup⟩ := h.bootRuntime boot
    have hnot : ∀ i, s'.phase r ≠ .driving i := by
      rw [hphase, hr]
      rintro i ⟨⟩
    cases up with
    | true =>
      rw [show s.poll r boot turn = s'.ensureStarted r turn by
        simp only [Instance.poll, hr, heq, if_true]]
      exact h'.ensureStarted (hup rfl) hnot turn
    | false =>
      rw [show s.poll r boot turn = s'.setPhase r .refused by
        simp only [Instance.poll, hr, heq, Bool.false_eq_true, if_false]]
      exact h'.setPhase trivial hnot (by rintro i ⟨⟩)
  | driving i =>
    rw [show s.poll r boot turn = s.drive r i turn by simp only [Instance.poll, hr]]
    exact (h.taken hr).drive turn
  | waiting b =>
    cases b with
    | true =>
      have hfits := h.fits r
      rw [hr] at hfits
      rw [show s.poll r boot turn = s.ensureStarted r turn by simp only [Instance.poll, hr]]
      exact h.ensureStarted hfits.1 (by rw [hr]; rintro i ⟨⟩) turn
    | false =>
      rw [show s.poll r boot turn = s by simp only [Instance.poll, hr]]
      exact h
  | _ =>
    rw [show s.poll r boot turn = s by simp only [Instance.poll, hr]]
    exact h

theorem Orderly.dropRequest (h : s.Orderly) (r : ℕ) : (s.dropRequest r).Orderly := by
  cases hr : s.phase r with
  | driving i =>
    rw [show s.dropRequest r = (notify { s with startup := .pending i }).setPhase r .dropped by
      simp only [Instance.dropRequest, hr]]
    exact (h.taken hr).handBack
  | absent =>
    rw [show s.dropRequest r = s by simp only [Instance.dropRequest, hr]]
    exact h
  | _ =>
    rw [show s.dropRequest r = s.setPhase r .dropped by simp only [Instance.dropRequest, hr]]
    exact h.setPhase trivial (by rw [hr]; rintro i ⟨⟩) (by rintro i ⟨⟩)

/-- The evaluation settles. -/
private theorem Orderly.settle (h : s.Orderly) (hrunning : s.runtime = true)
    (hpending : s.evaluation = .pending) (evaluation : Evaluation) :
    { s with evaluation := evaluation }.Orderly := by
  refine ⟨⟨fun hnot => ?_, h.same, h.undone, h.handed, fun hrun hdone hnone => ?_,
    fun hrun message hmessage => ?_, fun message _ hdone hranOut => ?_, h.logged⟩, fun r => ?_,
    h.one_driver, h.driver⟩
  · exact absurd (hrunning.symm.trans hnot) (by simp)
  · have hold := h.evaluated hrun hdone hnone
    rw [hpending] at hold
    exact hold.imp (by rintro ⟨⟩) id
  · exact absurd (hpending.symm.trans (h.failed hrun message hmessage)) (by simp)
  · cases hfailure : s.failure with
    | none =>
      have hold := h.evaluated hrunning hdone hfailure
      rw [hpending] at hold
      have hranOut : s.ranOut = false := hranOut
      simp [hranOut] at hold
    | some message' =>
      exact absurd (hpending.symm.trans (h.failed hrunning message' hfailure)) (by simp)
  · have hfits := h.fits r
    cases hr : s.phase r with
    | driving i => rwa [hr] at hfits
    | waiting b => rwa [hr] at hfits
    | returned ok => rwa [hr] at hfits
    | _ => trivial

/-- **Every event** keeps the invariant. -/
theorem Orderly.step (h : s.Orderly) (e : InstanceEvent) : (s.step e).Orderly := by
  cases e with
  | arrive r =>
    rw [Instance.step]
    split_ifs with hr
    · exact h.setPhase trivial (by rw [hr]; rintro i ⟨⟩) (by rintro i ⟨⟩)
    · exact h
  | poll r boot turn => exact h.poll r boot turn
  | settle rejection =>
    simp only [Instance.step]
    split_ifs with hpending
    · rw [Bool.and_eq_true, decide_eq_true_eq] at hpending
      exact h.settle hpending.1 hpending.2 _
    · exact h
  | drop r => exact h.dropRequest r

theorem orderly_initial : initial.Orderly := by
  refine ⟨⟨fun _ => ⟨rfl, rfl, rfl, rfl⟩, ?_, fun hne => absurd rfl hne, ?_, ?_, ?_, ?_, rfl⟩,
    fun _ => trivial, ?_, ?_⟩
  · rintro i ⟨⟩
  · rintro ⟨⟩
  · rintro ⟨⟩
  · rintro ⟨⟩
  · rintro message ⟨⟩
  · rintro r r' i i' ⟨⟩
  · rintro ⟨⟩

/-! ### Leaving the loop -/

theorem phase_conclude (s : Instance) {r r' i : ℕ} {ok b : Bool} (hne : r' ≠ r)
    (hr : s.phase r' = .waiting b) : (s.conclude r i ok).phase r' = .waiting true := by
  show (Instance.setPhase _ r (.returned ok)).phase r' = _
  rw [phase_setPhase, if_neg hne]
  simp only [notify, hr]

theorem phase_finish (s : Instance) {r r' i : ℕ} {b : Bool} (hne : r' ≠ r)
    (hr : s.phase r' = .waiting b) : (s.finish r i).phase r' = .waiting true := by
  rw [Instance.finish]
  split <;> exact phase_conclude _ hne hr

/-- What `drive_startup` leaves, if it leaves the loop. -/
theorem drive_cases (s : Instance) (r i : ℕ) (turn : Turn) :
    s.drive r i turn = s.setPhase r (.driving i) ∨ s.drive r i turn = s.finish r i := by
  cases turn with
  | suspended => exact .inl rfl
  | stopped =>
    rw [Instance.drive]
    split_ifs
    · exact .inl rfl
    · exact .inr rfl
  | ended => exact .inr rfl

theorem phase_finish_self (s : Instance) (r i : ℕ) :
    ∃ ok, (s.finish r i).phase r = .returned ok := by
  have hself (s' : Instance) (ok : Bool) : (s'.conclude r i ok).phase r = .returned ok := by
    show (Instance.setPhase _ r (.returned ok)).phase r = _
    rw [phase_setPhase, if_pos rfl]
  rw [Instance.finish]
  split <;> exact ⟨_, hself ..⟩

/-- **Nobody sleeps through the end**: whoever waits when `STARTUP` leaves `Driving` is notified. -/
theorem Orderly.notified (h : s.Orderly) (e : InstanceEvent) (hdriving : s.startup = .driving)
    (hleft : (s.step e).startup ≠ .driving) {r' : ℕ} {b : Bool} (hr' : s.phase r' = .waiting b) :
    (s.step e).phase r' = .waiting true := by
  have hne {r : ℕ} (hr : ∀ b, s.phase r ≠ .waiting b) : r' ≠ r := by
    rintro rfl
    exact hr b hr'
  have hrunning : s.runtime = true := by
    have hfits := h.fits r'
    rw [hr'] at hfits
    exact hfits.1
  cases e with
  | arrive r =>
    refine absurd ?_ hleft
    rw [Instance.step]
    split_ifs <;> exact hdriving
  | settle rejection =>
    refine absurd ?_ hleft
    simp only [Instance.step]
    split_ifs <;> exact hdriving
  -- a poll ends the startup only in the request that drives it
  | poll r boot turn =>
    change (s.poll r boot turn).startup ≠ _ at hleft
    show (s.poll r boot turn).phase r' = _
    cases hr : s.phase r with
    | driving i =>
      have heq : s.poll r boot turn = s.drive r i turn := by simp only [Instance.poll, hr]
      rw [heq] at hleft ⊢
      rcases drive_cases s r i turn with hsame | hfinish
      · rw [hsame] at hleft
        exact absurd hdriving hleft
      · rw [hfinish]
        exact phase_finish s (hne (by rw [hr]; rintro b ⟨⟩)) hr'
    | arrived =>
      refine absurd ?_ hleft
      simp only [Instance.poll, hr, Instance.bootRuntime, hrunning, if_true, Instance.ensureStarted,
        hdriving]
      exact hdriving
    | waiting b =>
      refine absurd ?_ hleft
      cases b with
      | true =>
        simp only [Instance.poll, hr, Instance.ensureStarted, hdriving]
        exact hdriving
      | false => simp only [Instance.poll, hr, hdriving]
    | _ => exact absurd (by simp only [Instance.poll, hr, hdriving]) hleft
  -- dropping the driver hands the startup back, which notifies whoever waits
  | drop r =>
    change (s.dropRequest r).startup ≠ _ at hleft
    show (s.dropRequest r).phase r' = _
    cases hr : s.phase r with
    | driving i =>
      simp only [Instance.dropRequest, hr]
      rw [phase_setPhase, if_neg (hne (by rw [hr]; rintro b ⟨⟩))]
      simp only [notify, hr']
    | absent => exact absurd (by simp only [Instance.dropRequest, hr, hdriving]) hleft
    | _ =>
      refine absurd ?_ hleft
      simp only [Instance.dropRequest, hr]
      exact hdriving

/-- A request that is about to look at `STARTUP`. -/
def Asking (s : Instance) (r : ℕ) : Prop :=
  s.phase r = .waiting true ∨ (s.phase r = .arrived ∧ s.runtime = true)

theorem Asking.poll (h : s.Asking r) (boot : Except String Boot) (turn : Turn) :
    s.poll r boot turn = s.ensureStarted r turn := by
  rcases h with hr | ⟨hr, hrunning⟩
  · simp only [Instance.poll, hr]
  · simp only [Instance.poll, hr, Instance.bootRuntime, hrunning, if_true]

end Steps

end Instance

/-! ### The law of startup -/

/-- What holds after every run. -/
structure StartupKept (s : Instance) : Prop where
  one_driver : ∀ r r' i i', s.phase r = .driving i → s.phase r' = .driving i' → r = r'
  driving_iff : s.startup = .driving ↔ ∃ r i, s.phase r = .driving i
  /-- A driver that is dropped hands its invocation back. -/
  handBack : ∀ r i, s.phase r = .driving i →
    i = s.invocation ∧ (s.step (.drop r)).startup = .pending i
  /-- Whoever looks takes it over. -/
  takeOver : ∀ i r boot turn, s.startup = .pending i → s.Asking r →
    i = s.invocation ∧ ((s.step (.poll r boot turn)).phase r = .driving i ∨
      ∃ ok, (s.step (.poll r boot turn)).phase r = .returned ok)
  /-- Nobody sleeps unless somebody drives. -/
  awake : ∀ r, s.phase r = .waiting false → s.startup = .driving
  notified : ∀ e, s.startup = .driving → (s.step e).startup ≠ .driving →
    ∀ r b, s.phase r = .waiting b → (s.step e).phase r = .waiting true
  /-- Whoever looks once startup is over has its answer. -/
  answered : ∀ r boot turn, s.startup = .done → s.Asking r →
    (s.step (.poll r boot turn)).phase r = .returned s.failure.isNone
  /-- The requests go on once the script is evaluated, or has nothing left to run. -/
  ok : ∀ r, s.phase r = .returned true → s.failure = none ∧ s.startup = .done ∧
    (s.evaluation = .fulfilled ∨ s.ranOut = true)
  /-- A rejection is final, if there was something left to run until then. -/
  rejected : ∀ message, s.evaluation = .rejected message → s.ranOut = false →
    (∀ r, s.phase r ≠ .returned true) ∧ (s.startup = .done → s.failure = some message)
  /-- The invocation is handed on once, when startup is over. -/
  handed : s.runtime = true →
    (s.startup ≠ .done ∧ s.handed = []) ∨
    (s.startup = .done ∧ s.failure = none ∧ s.handed = [(s.invocation, .kept)]) ∨
    (s.startup = .done ∧ s.failure.isSome ∧ s.handed = [(s.invocation, .cancelled)])
  /-- A failure is logged once. -/
  logged : s.log.length = if s.failure.isSome then 1 else 0

/-- **The law of startup**, over all runs. -/
theorem startup_kept (s : Instance) (hrun : instanceMachine.Run .initial s) : StartupKept s := by
  have h : s.Orderly := hrun.inv_of_sat (E := fun _ => True) Instance.orderly_initial
    fun s e hs _ => hs.step e
  -- an answer of Ok was given after the startup was done, with no failure kept
  have hok (r : ℕ) (hr : s.phase r = .returned true) : s.failure = none ∧ s.startup = .done ∧
      (s.evaluation = .fulfilled ∨ s.ranOut = true) := by
    have hfits := h.fits r
    rw [hr] at hfits
    obtain ⟨hrunning, hdone, hnone⟩ := hfits
    have hnone := Option.isNone_iff_eq_none.mp hnone.symm
    exact ⟨hnone, hdone, h.evaluated hrunning hdone hnone⟩
  exact {
    one_driver := h.one_driver
    driving_iff := by
      refine ⟨h.driver, ?_⟩
      rintro ⟨r, i, hr⟩
      exact (h.taken hr).driving
    handBack := fun r i hr => by
      refine ⟨(h.taken hr).mine, ?_⟩
      show (s.dropRequest r).startup = _
      simp only [Instance.dropRequest, hr]
      rfl
    takeOver := fun i r boot turn hpending hr => by
      refine ⟨h.same i hpending, ?_⟩
      show (s.poll r boot turn).phase r = _ ∨ ∃ ok, (s.poll r boot turn).phase r = _
      rw [hr.poll boot turn]
      simp only [Instance.ensureStarted, hpending]
      -- the one who takes over drives the loop or finishes it
      rcases Instance.drive_cases { s with startup := .driving } r i turn with heq | heq
      · refine .inl ?_
        rw [heq, Instance.phase_setPhase, if_pos rfl]
      · rw [heq]
        exact .inr (Instance.phase_finish_self ..)
    awake := fun r hr => by
      have hfits := h.fits r
      rw [hr] at hfits
      exact hfits.2 rfl
    notified := fun e hdriving hleft r b hr => h.notified e hdriving hleft hr
    answered := fun r boot turn hdone hr => by
      show (s.poll r boot turn).phase r = _
      rw [hr.poll boot turn]
      simp only [Instance.ensureStarted, hdone]
      rw [Instance.phase_setPhase, if_pos rfl]
    ok := hok
    rejected := fun message hmessage hranOut => by
      refine ⟨fun r hr => ?_, fun hdone => h.rejected message hmessage hdone hranOut⟩
      obtain ⟨-, -, hevaluation⟩ := hok r hr
      rw [hmessage, hranOut] at hevaluation
      simp at hevaluation
    handed := fun hrunning => by
      by_cases hdone : s.startup = .done
      · have hhanded := h.handed hrunning hdone
        rcases hfailure : s.failure with _ | message
        · rw [hfailure] at hhanded
          exact .inr (.inl ⟨hdone, rfl, hhanded⟩)
        · rw [hfailure] at hhanded
          exact .inr (.inr ⟨hdone, rfl, hhanded⟩)
      · exact .inl ⟨hdone, (h.undone hdone).1⟩
    logged := h.logged }

/-- A driver is dropped, the request that waits for it takes over, and the script rejects. -/
theorem startup_kept_dropped : ∃ s, instanceMachine.Run .initial s ∧ StartupKept s ∧
    (s.handed == [(7, .cancelled)] && s.phase 0 == .dropped && s.phase 1 == .returned false &&
      s.phase 2 == .returned false && s.log.length == 1) = true := by
  obtain ⟨s, hrun, hs⟩ := Machine.exists_run_of_exec (M := instanceMachine) (s := .initial)
    [.arrive 0, .arrive 1, .poll 0 (.ok ⟨7, false⟩) .suspended, .poll 1 (.error "") .suspended,
      .drop 0, .poll 1 (.error "") .suspended, .settle (some "Script evaluation failed: 1"),
      .poll 1 (.error "") .stopped, .arrive 2, .poll 2 (.error "") .suspended]
    (P := fun s => s.handed == [(7, .cancelled)] && s.phase 0 == .dropped &&
      s.phase 1 == .returned false && s.phase 2 == .returned false && s.log.length == 1)
    (by decide)
  exact ⟨s, hrun, startup_kept s hrun, hs⟩

/-- **The script may not be evaluated**: its top-level `await` waits for a promise nothing settles,
and the requests go on; a rejection after that is not noticed. -/
theorem startup_not_evaluated : ∃ s, instanceMachine.Run .initial s ∧
    (s.phase 0 == .returned true && s.evaluation == .rejected "Script evaluation failed: 1" &&
      s.phase 1 == .returned true) = true :=
  Machine.exists_run_of_exec (M := instanceMachine) (s := .initial)
    [.arrive 0, .poll 0 (.ok ⟨7, false⟩) .ended, .settle (some "Script evaluation failed: 1"),
      .arrive 1, .poll 1 (.error "") .suspended]
    (by decide)

end Serve
