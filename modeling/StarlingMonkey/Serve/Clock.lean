import Mathlib.Algebra.Order.Ring.Int
import Mathlib.Tactic.Common

/-!
# The clock of a request

A request runs under four limits, each for one phase of it or, for `--end-to-end-timeout`, for all
of it. The last one becomes a deadline when the clock is started, and a phase is given the smaller
of its own limit and what is left until then. Times are in nanoseconds.

* `Phases` are the phases of a request, one after another, each over within the limit it was given.
* `spent_le`: together they take no longer than the end-to-end limit.
* `clockLaw_iff`: the clock keeps what it promises when the deadline is a time that the platform can
  represent. There is no other time at which it can be started.
-/

namespace Serve

/-- `RuntimeConfig`, as far as the timeouts are concerned. -/
structure TimeoutConfig where
  /-- `--dispatch-timeout`. -/
  dispatchTimeout : Option UInt64
  /-- `--response-body-timeout`. -/
  responseBodyTimeout : Option UInt64
  /-- `--waituntil-timeout`. -/
  waituntilTimeout : Option UInt64
  /-- `--end-to-end-timeout`. -/
  endToEndTimeout : Option UInt64
  /-- `--wpt-mode`. -/
  wptMode : Bool
deriving DecidableEq, Repr

/-- `Duration::from_secs`. -/
def fromSecs (seconds : ℕ) : ℕ := seconds * 10 ^ 9

/-- `WPT_SERVE_TIMEOUT`. -/
def wptServeTimeout : ℕ := fromSecs 120

/-- `serve_timeout`. -/
def serveTimeout (seconds : Option UInt64) (wptMode : Bool) : Option ℕ :=
  match seconds with
  | some seconds => if seconds = 0 then none else some (fromSecs seconds.toNat)
  | none => if wptMode then some wptServeTimeout else none

namespace TimeoutConfig

/-- The explicit phase timeouts, in the order in which they are checked. -/
def phases (config : TimeoutConfig) : List (String × Option UInt64) :=
  [("--dispatch-timeout", config.dispatchTimeout),
    ("--response-body-timeout", config.responseBodyTimeout),
    ("--waituntil-timeout", config.waituntilTimeout)]

/-- `validate_serve_timeouts`. -/
def validateServeTimeouts (config : TimeoutConfig) : Except String Unit :=
  match config.endToEndTimeout.filter (· ≠ 0) with
  | none => .ok ()
  | some endToEnd =>
    match config.phases.find? fun phase => phase.2.any fun s => s ≠ 0 && endToEnd < s with
    | some (flag, seconds) => .error (s!"{flag} {seconds.getD 0} exceeds --end-to-end-timeout " ++
        s!"{endToEnd}: a phase cannot run longer than the whole request")
    | none => .ok ()

end TimeoutConfig

/-- `ServeTimeouts`. -/
structure ServeTimeouts where
  dispatch : Option ℕ
  responseBody : Option ℕ
  waituntil : Option ℕ
  endToEnd : Option ℕ
deriving DecidableEq, Repr

/-- `RequestClock`. -/
structure RequestClock where
  timeouts : ServeTimeouts
  /-- When the end-to-end window closes. -/
  deadline : Option ℕ
deriving DecidableEq, Repr

namespace ServeTimeouts

/-- `ServeTimeouts::from_config`. -/
def fromConfig (config : TimeoutConfig) : ServeTimeouts where
  dispatch := serveTimeout config.dispatchTimeout config.wptMode
  responseBody := serveTimeout config.responseBodyTimeout config.wptMode
  waituntil := serveTimeout config.waituntilTimeout config.wptMode
  endToEnd := serveTimeout config.endToEndTimeout false

/-- `start_clock`, on a platform that can represent the times up to `latest`: adding a duration to a
time panics where the sum is later. -/
def startClock (latest : ℕ) (timeouts : ServeTimeouts) (now : ℕ) : Except String RequestClock :=
  match timeouts.endToEnd with
  | none => .ok ⟨timeouts, none⟩
  | some limit =>
    if now + limit ≤ latest then .ok ⟨timeouts, some (now + limit)⟩
    else .error "overflow when adding duration to instant"

end ServeTimeouts

namespace RequestClock

/-- `RequestClock::remaining`. -/
def remaining (clock : RequestClock) (now : ℕ) : Option ℕ := clock.deadline.map (· - now)

/-- `RequestClock::phase_time_limit`. -/
def phaseTimeLimit (clock : RequestClock) (phase : Option ℕ) (now : ℕ) : Option ℕ :=
  match phase, clock.remaining now with
  | some a, some b => some (min a b)
  | limit, none => limit
  | none, limit => limit

/-- `RequestClock::error_body_time_limit`. -/
def errorBodyTimeLimit (clock : RequestClock) : Option ℕ := clock.timeouts.responseBody

end RequestClock

/-- The phases of a request that take a limit from the clock. -/
inductive Phase where
  /-- The content script's startup, in isolated mode. -/
  | startup
  | dispatch
  | responseBody
  | waituntil
deriving DecidableEq, Repr

/-- A phase's own setting. -/
def Phase.setting (timeouts : ServeTimeouts) : Phase → Option ℕ
  | startup => none
  | dispatch => timeouts.dispatch
  | responseBody => timeouts.responseBody
  | waituntil => timeouts.waituntil

/-- `dispatch_time_limit` and its siblings; the startup is given all that is left. -/
def RequestClock.limit (clock : RequestClock) (phase : Phase) (now : ℕ) : Option ℕ :=
  clock.phaseTimeLimit (phase.setting clock.timeouts) now

/-- Phases of a request, one after another: each asks for its limit when it begins, and is over when
that much time has passed. What they took together is `spent`. -/
inductive Phases (clock : RequestClock) (start : ℕ) : ℕ → ℕ → Prop where
  | nil : Phases clock start start 0
  | phase {now spent : ℕ} (phase : Phase) (asked ended : ℕ) (h : Phases clock start now spent)
      (hasked : now ≤ asked) (hended : asked ≤ ended)
      (hlimit : ∀ limit, clock.limit phase asked = some limit → ended - asked ≤ limit) :
      Phases clock start ended (spent + (ended - asked))

/-! ### Limits -/

section Limits

variable {clock : RequestClock} {phase : Phase} {now start spent : ℕ}

theorem RequestClock.limit_le_setting {setting : ℕ}
    (h : phase.setting clock.timeouts = some setting) :
    ∃ limit, clock.limit phase now = some limit ∧ limit ≤ setting := by
  rcases hleft : clock.remaining now with - | left
  · exact ⟨setting, by simp [RequestClock.limit, RequestClock.phaseTimeLimit, h, hleft], le_rfl⟩
  · exact ⟨min setting left, by simp [RequestClock.limit, RequestClock.phaseTimeLimit, h, hleft],
      min_le_left setting left⟩

theorem RequestClock.limit_le_remaining {left : ℕ} (h : clock.remaining now = some left) :
    ∃ limit, clock.limit phase now = some limit ∧ limit ≤ left := by
  rcases hsetting : phase.setting clock.timeouts with - | setting
  · exact ⟨left, by simp [RequestClock.limit, RequestClock.phaseTimeLimit, h, hsetting], le_rfl⟩
  · exact ⟨min setting left,
      by simp [RequestClock.limit, RequestClock.phaseTimeLimit, h, hsetting],
      min_le_right setting left⟩

theorem RequestClock.limit_eq_none_iff :
    clock.limit phase now = none ↔
      phase.setting clock.timeouts = none ∧ clock.deadline = none := by
  simp only [RequestClock.limit, RequestClock.phaseTimeLimit, RequestClock.remaining]
  cases phase.setting clock.timeouts <;> cases clock.deadline <;> simp

/-- **The phases fit into the window.** What was spent is part of the time that has passed, and of
the time until the deadline. -/
theorem Phases.spent_add_le {deadline : ℕ} (h : Phases clock start now spent)
    (hclock : clock.deadline = some deadline) (hstart : start ≤ deadline) :
    start ≤ now ∧ start + spent ≤ min now deadline := by
  induction h with
  | nil => simpa using hstart
  | phase phase asked ended h hasked hover hlimit ih =>
    obtain ⟨hnow, hspent⟩ := ih
    have hremaining : clock.remaining asked = some (deadline - asked) := by
      rw [RequestClock.remaining, hclock]
      rfl
    obtain ⟨limit, hlimit', hle⟩ : ∃ limit, clock.limit phase asked = some limit ∧
        limit ≤ deadline - asked := RequestClock.limit_le_remaining hremaining
    have hshort := hlimit limit hlimit'
    omega

end Limits

/-! ### The law of the clock -/

/-- What the clock of a request promises. -/
structure ClockLaw (timeouts : ServeTimeouts) (start : ℕ) (clock : RequestClock) : Prop where
  /-- A limit is at most the phase's own setting. -/
  setting : ∀ phase now setting, phase.setting timeouts = some setting →
    ∃ limit, clock.limit phase now = some limit ∧ limit ≤ setting
  /-- A limit is at most what is left of the window. -/
  remaining : ∀ phase now endToEnd, timeouts.endToEnd = some endToEnd →
    ∃ limit, clock.limit phase now = some limit ∧ limit ≤ start + endToEnd - now
  /-- There is no limit only where neither is set. -/
  unlimited : ∀ phase now, clock.limit phase now = none →
    phase.setting timeouts = none ∧ timeouts.endToEnd = none
  /-- The phases take no longer than the end-to-end limit. -/
  spent : ∀ endToEnd now spent, timeouts.endToEnd = some endToEnd → Phases clock start now spent →
    spent ≤ endToEnd
  /-- The body of an error response has the limit of a response body. -/
  errorBody : clock.errorBodyTimeLimit = timeouts.responseBody

/-- The deadline is a time that can be represented. -/
def TimeoutConfig.Fits (latest : ℕ) (config : TimeoutConfig) (start : ℕ) : Prop :=
  ∀ seconds, config.endToEndTimeout = some seconds → seconds ≠ 0 →
    start + fromSecs seconds.toNat ≤ latest

/-- A clock that was started keeps its promises. -/
theorem clockLaw_startClock {latest start : ℕ} {timeouts : ServeTimeouts} {clock : RequestClock}
    (h : timeouts.startClock latest start = .ok clock) : ClockLaw timeouts start clock := by
  have hclock : clock.timeouts = timeouts ∧ clock.deadline = timeouts.endToEnd.map (start + ·) := by
    rw [ServeTimeouts.startClock] at h
    split at h
    next hnone =>
      cases h
      exact ⟨rfl, by rw [hnone]; rfl⟩
    next limit hsome =>
      split at h
      · cases h
        exact ⟨rfl, by rw [hsome]; rfl⟩
      · cases h
  obtain ⟨rfl, hdeadline⟩ := hclock
  refine ⟨fun phase now setting hsetting => RequestClock.limit_le_setting hsetting, ?_, ?_, ?_, rfl⟩
  · intro phase now endToEnd hendToEnd
    refine RequestClock.limit_le_remaining ?_
    rw [RequestClock.remaining, hdeadline, hendToEnd]
    rfl
  · intro phase now hnone
    obtain ⟨hsetting, hnone⟩ := RequestClock.limit_eq_none_iff.mp hnone
    rw [hdeadline, Option.map_eq_none_iff] at hnone
    exact ⟨hsetting, hnone⟩
  · intro endToEnd now spent hendToEnd hphases
    rw [hendToEnd] at hdeadline
    have hle : start ≤ now ∧ start + spent ≤ min now (start + endToEnd) :=
      hphases.spent_add_le hdeadline (Nat.le_add_right start endToEnd)
    omega

/-- **The clock keeps its promises** for every configuration, from every time at which it can be
started; and it can be started where the deadline can be represented. -/
theorem clockLaw_iff (latest : ℕ) (config : TimeoutConfig) (start : ℕ) :
    (∃ clock, (ServeTimeouts.fromConfig config).startClock latest start = .ok clock ∧
      ClockLaw (.fromConfig config) start clock) ↔ config.Fits latest start := by
  have hstart : (∃ clock, (ServeTimeouts.fromConfig config).startClock latest start = .ok clock) ↔
      config.Fits latest start := by
    simp only [ServeTimeouts.startClock, ServeTimeouts.fromConfig, serveTimeout, TimeoutConfig.Fits]
    cases config.endToEndTimeout with
    | none => simp
    | some seconds =>
      by_cases hzero : seconds = 0
      · simp [hzero]
      · by_cases hle : start + fromSecs seconds.toNat ≤ latest <;> simp [hzero, hle]
  rw [← hstart]
  constructor
  · rintro ⟨clock, hclock, -⟩
    exact ⟨clock, hclock⟩
  · rintro ⟨clock, hclock⟩
    exact ⟨clock, hclock, clockLaw_startClock hclock⟩

/-- The longest limit that is accepted ends later than any time of a clock with signed seconds. -/
theorem longest_limit_panics :
    (TimeoutConfig.mk none none none (some 18446744073709551615) false).validateServeTimeouts =
      .ok () ∧
    (ServeTimeouts.fromConfig ⟨none, none, none, some 18446744073709551615, false⟩).startClock
      (fromSecs (2 ^ 63) - 1) 0 = .error "overflow when adding duration to instant" := by
  have hlimit : serveTimeout (some 18446744073709551615) false =
      some (fromSecs (18446744073709551615 : UInt64).toNat) := by
    simp only [serveTimeout]
    exact if_neg (by decide)
  have hlate : ¬ 0 + fromSecs (18446744073709551615 : UInt64).toNat ≤ fromSecs (2 ^ 63) - 1 := by
    simp only [fromSecs, UInt64.reduceToNat]
    omega
  refine ⟨rfl, ?_⟩
  simp only [ServeTimeouts.startClock, ServeTimeouts.fromConfig, hlimit]
  exact if_neg hlate

end Serve
