import StarlingMonkey.Lib.Run
import StarlingMonkey.Lib.Protocol
import Mathlib.Data.List.TakeWhile

/-!
# Finishing the sends of a loop

`finish_pending_sends` takes the sends that are registered on a loop and races them against a driver
of the loop. If the sends are done first, the driver's future is dropped where it awaits. If the
loop runs out of work first, the sends are abandoned, and awaited.

`SendLoop` has what a driver works on: the tasks, the interest in the loop, the futures in flight,
and of the world outside which of these have completed and which sends are done. What tasks,
reactions, futures and `abandon` do, and what happens outside, comes as events of its own.
`log` records what happened, and no function of the loop reads it.

* `SendAllowed`: what has to be the case when `finish_pending_sends` returns, when a send is
  abandoned, and when a driver finds that no work is left.
* `sends_finished`: every record is allowed, in every run in which no send is registered while
  another set of sends is finished, no stop is requested, and no send is done before it is
  abandoned. A task or a future is not lost, whichever driver is dropped where it awaits.
* `Ran.of_run`, `Settled.of_run`: a step of a driver runs the tasks that are ready, and a poll
  settles the futures that have completed, whatever else happens meanwhile.
* `exists_delivered`: a driver that is started gets that far.
-/

namespace CoreRuntime

open Protocol

/-- Where a driver is. -/
inductive DriverPoint where
  /-- Its future was not polled yet. -/
  | start
  /-- It is about to step. -/
  | turn
  /-- In a step, with the tasks of the batch that are to come, and whether it ran one. -/
  | batch (tasks : List ℕ) (ranAny : Bool)
  /-- At the await after a step that made progress. -/
  | yielding
  /-- At the await after a step that ran nothing. -/
  | idle
  /-- It polls its futures. -/
  | polling (progressed : Bool)
  /-- It settles futures. -/
  | settling (completed : List ℕ)
deriving DecidableEq, Repr

/-- Whether `run_until` awaits. -/
def DriverPoint.awaits : DriverPoint → Bool
  | .start | .yielding | .idle => true
  | _ => false

/-- What `finish_pending_sends` has taken: the sends it awaits, and those it may abandon. -/
structure Race where
  dones : List ℕ
  abandons : List ℕ
deriving DecidableEq, Repr

/-- Where the thread of the loop is. -/
inductive SendPhase where
  | outside
  /-- A driver runs, in a race with sends or alone. -/
  | driving (race : Option Race) (point : DriverPoint)
  /-- The sends are abandoned. -/
  | abandoning (race : Race)
  /-- The abandoned sends are awaited. -/
  | awaiting (dones : List ℕ)
deriving DecidableEq, Repr

/-- What happened. -/
inductive SendRecord where
  | registered (send : ℕ)
  | finished (send : ℕ)
  | abandoned (send : ℕ)
  /-- A driver found that the loop has no work left. -/
  | ranOut
  /-- `finish_pending_sends` returned. -/
  | returned
  | queued (task : ℕ)
  | ran (task : ℕ)
  | cancelled (task : ℕ)
  | spawned (future : ℕ)
  | settled (future : ℕ)
  /-- The loop's futures were cancelled. -/
  | dropped (future : ℕ)
  | acquired
  | released
deriving DecidableEq, Repr

/-- The records about the work of the loop. -/
def SendRecord.isWork : SendRecord → Bool
  | .registered _ | .finished _ | .abandoned _ | .returned => false
  | _ => true

/-- A loop and the sends that are registered on it. -/
structure SendLoop where
  /-- `pending_sends`. -/
  registered : List ℕ
  /-- The sends whose `done` has completed. -/
  finished : List ℕ
  /-- The tasks that are not ready, and those that are. -/
  waiting : List ℕ
  ready : List ℕ
  /-- How much interest is held in the loop. -/
  interest : ℕ
  /-- The futures in flight. -/
  futures : List ℕ
  /-- The futures whose work is done. -/
  completed : List ℕ
  stopRequested : Bool
  phase : SendPhase
  /-- The next number for a send, a task or a future. -/
  next : ℕ
  log : List SendRecord
deriving DecidableEq, Repr

/-- What happens: code of the loop, other code of the thread or the world outside acts on the loop;
`finish_pending_sends` is called, or another driver starts or is dropped; the code of the loop goes
on; the driver has polled its futures, which left jobs or not; the future that awaits is polled,
woken by a timer or a notification or not. -/
inductive SendEvent where
  | register
  | sendDone (send : ℕ)
  | queueTask
  | taskReady (task : ℕ)
  | cancelTask (task : ℕ)
  | acquire
  | release
  | spawn
  | futureDone (future : ℕ)
  | requestStop
  | finish
  | drive
  | drop
  | advance
  | polled (jobs : Bool)
  | resume (woken : Bool)
deriving DecidableEq, Repr

/-- The driver goes on. -/
def SendEvent.ofDriver : SendEvent → Bool
  | .advance | .polled _ | .resume _ => true
  | _ => false

namespace SendLoop

/-- Something happened. -/
def record (s : SendLoop) (r : SendRecord) : SendLoop := { s with log := s.log ++ [r] }

/-- The sends that are not done, from the first such on: those before it were awaited. -/
def awaited (s : SendLoop) (dones : List ℕ) : List ℕ := dones.dropWhile fun id => id ∈ s.finished

/-- Whether the loop has tasks, interest or futures. -/
def isAlive (s : SendLoop) : Bool :=
  !s.waiting.isEmpty || !s.ready.isEmpty || s.interest != 0 || !s.futures.isEmpty

/-- `cancel_pending_futures`. -/
def cancelPendingFutures (s : SendLoop) : SendLoop :=
  { s with futures := [], log := s.log ++ s.futures.map .dropped }

/-- How `run_until` goes on after a step. It may return. -/
def stepped (s : SendLoop) (ranAny : Bool) : SendLoop × Option DriverPoint :=
  if s.stopRequested then (s.cancelPendingFutures, none)
  else if ranAny then (s, some .yielding)
  else if s.isAlive then (s, some .idle)
  else (s.record .ranOut, none)

/-- The code of `run_until` goes on. -/
def driver (s : SendLoop) : DriverPoint → SendLoop × Option DriverPoint
  | .turn => (s, some (.batch s.ready false))
  | .batch (task :: tasks) ranAny =>
    if task ∈ s.ready then
      ({ s with ready := s.ready.erase task }.record (.ran task), some (.batch tasks true))
    else (s, some (.batch tasks ranAny))
  | .batch [] ranAny => s.stepped ranAny
  | .settling (future :: completed) => (s.record (.settled future), some (.settling completed))
  | .settling [] => (s, some .turn)
  | point => (s, some point)

/-- The future of `run_until` is polled where it awaits. -/
def resumed (woken : Bool) : DriverPoint → DriverPoint
  | .start => .turn
  | .yielding => .polling true
  | .idle => if woken then .settling [] else .polling false
  | point => point

/-- `poll_pending_futures`, with what `run_until` makes of the result. -/
def polled (s : SendLoop) (progressed jobs : Bool) : SendLoop × DriverPoint :=
  let done := s.futures.filter fun id => id ∈ s.completed
  if done = [] ∧ progressed = false ∧ jobs = false then (s, .idle)
  else ({ s with futures := s.futures.filter fun id => id ∉ s.completed }, .settling done)

/-- `finish_pending_sends` returns. -/
def finishReturned (s : SendLoop) : SendLoop := { s.record .returned with phase := .outside }

/-- Where the thread is when the driver is at a point, or has returned. -/
def drivenTo (race : Option Race) : Option DriverPoint → SendPhase
  | some point => .driving race point
  | none => race.elim .outside .abandoning

/-- The future that awaits is polled: the sends first, then the driver. -/
def resume (s : SendLoop) (woken : Bool) : SendLoop :=
  match s.phase with
  | .driving (some race) point =>
    if point.awaits then
      match s.awaited race.dones with
      | [] => s.finishReturned
      | dones => { s with phase := .driving (some { race with dones }) (resumed woken point) }
    else s
  | .driving none point =>
    if point.awaits then { s with phase := .driving none (resumed woken point) } else s
  | .awaiting dones =>
    match s.awaited dones with
    | [] => s.finishReturned
    | dones => { s with phase := .awaiting dones }
  | _ => s

/-- The code of the loop goes on. -/
def advance (s : SendLoop) : SendLoop :=
  match s.phase with
  | .driving race point =>
    let (t, point') := s.driver point
    { t with phase := drivenTo race point' }
  | .abandoning ⟨dones, send :: abandons⟩ =>
    { s.record (.abandoned send) with phase := .abandoning ⟨dones, abandons⟩ }
  | .abandoning ⟨dones, []⟩ => { s with phase := .awaiting dones }
  | _ => s

/-- What happens at an event. An event that cannot happen now changes nothing. -/
def step (s : SendLoop) : SendEvent → SendLoop
  | .register =>
    { s.record (.registered s.next) with
      registered := s.registered ++ [s.next], next := s.next + 1 }
  | .sendDone send =>
    if send < s.next then { s.record (.finished send) with finished := send :: s.finished } else s
  | .queueTask =>
    { s.record (.queued s.next) with waiting := s.waiting ++ [s.next], next := s.next + 1 }
  | .taskReady task =>
    if task ∈ s.waiting then
      { s with waiting := s.waiting.erase task, ready := s.ready ++ [task] }
    else s
  | .cancelTask task =>
    if task < s.next then
      { s.record (.cancelled task) with
        waiting := s.waiting.erase task, ready := s.ready.erase task }
    else s
  | .acquire => { s.record .acquired with interest := s.interest + 1 }
  | .release =>
    match s.interest with
    | 0 => s
    | n + 1 => { s.record .released with interest := n }
  | .spawn =>
    { s.record (.spawned s.next) with futures := s.futures ++ [s.next], next := s.next + 1 }
  | .futureDone future => { s with completed := future :: s.completed }
  | .requestStop => { s with stopRequested := true }
  | .finish =>
    if s.phase = .outside then
      if s.registered = [] then s.finishReturned
      else { s with
        registered := [], phase := .driving (some ⟨s.registered, s.registered⟩) .start }
    else s
  | .drive => if s.phase = .outside then { s with phase := .driving none .start } else s
  | .drop =>
    match s.phase with
    | .driving none point => if point.awaits then { s with phase := .outside } else s
    | _ => s
  | .advance => s.advance
  | .polled jobs =>
    match s.phase with
    | .driving race (.polling progressed) =>
      let (t, point) := s.polled progressed jobs
      { t with phase := .driving race point }
    | _ => s
  | .resume woken => s.resume woken

/-- A loop on which nothing has happened. -/
def initial : SendLoop := ⟨[], [], [], [], 0, [], [], false, .outside, 0, []⟩

end SendLoop

/-- The machine of a loop and its sends. -/
def sendMachine : Machine Empty Empty SendLoop SendEvent := ⟨fun s ev => pure (s.step ev)⟩

/-! ### What has to be the case -/

/-- No work is left: the tasks ran or were cancelled, the futures were settled or dropped, and the
interest was released. -/
structure NoWork (l : List SendRecord) : Prop where
  tasks : ∀ id, .queued id ∈ l → .ran id ∈ l ∨ .cancelled id ∈ l
  futures : ∀ id, .spawned id ∈ l → .settled id ∈ l ∨ .dropped id ∈ l
  interest : l.count .acquired = l.count .released

/-- A driver has found that no work is left, and `finish_pending_sends` has not returned since. -/
abbrev RanOut : List SendRecord → Prop := Since (fun _ r => r = .ranOut) (· = .returned)

/-- When a record may follow others. -/
def SendAllowed (l : List SendRecord) : SendRecord → Prop
  | .returned => ∀ id, .registered id ∈ l → .finished id ∈ l
  | .abandoned id => .abandoned id ∉ l ∧ .finished id ∉ l ∧ RanOut l
  | .ranOut => NoWork l
  | _ => True

namespace SendPhase

/-- The sends that are awaited. -/
def dones : SendPhase → List ℕ
  | .driving (some race) _ | .abandoning race => race.dones
  | .awaiting dones => dones
  | _ => []

/-- The sends that may still be abandoned. -/
def abandons : SendPhase → List ℕ
  | .driving (some race) _ | .abandoning race => race.abandons
  | _ => []

/-- The futures that the driver is about to settle. -/
def inHand : SendPhase → List ℕ
  | .driving _ (.settling completed) => completed
  | _ => []

/-- Whether `finish_pending_sends` is running. -/
def finishing : SendPhase → Bool
  | .driving (some _) _ | .abandoning _ | .awaiting _ => true
  | _ => false

/-- The driver is in a step whose batch is not over. -/
def stepping : SendPhase → Bool
  | .driving _ .turn | .driving _ (.batch _ _) => true
  | _ => false

/-- The driver polls its futures, or settles them. -/
def settling : SendPhase → Bool
  | .driving _ (.polling _) | .driving _ (.settling _) => true
  | _ => false

/-- The batch of the driver's step has the task, or is about to be made of the tasks that are
ready. -/
def Runs (id : ℕ) : SendPhase → Prop
  | .driving _ .turn => True
  | .driving _ (.batch tasks _) => id ∈ tasks
  | _ => False

end SendPhase

namespace SendLoop

/-- The sends. -/
structure Sends (s : SendLoop) : Prop where
  finished : ∀ id, id ∈ s.finished ↔ .finished id ∈ s.log
  registered : ∀ id, .registered id ∈ s.log →
    id ∈ s.finished ∨ id ∈ s.registered ∨ id ∈ s.phase.dones
  finishing : s.phase.finishing = true → s.registered = []
  nodup : (s.registered ++ s.phase.abandons).Nodup
  fresh : ∀ id ∈ s.registered ++ s.phase.abandons, id < s.next ∧ .abandoned id ∉ s.log
  old : ∀ id, .abandoned id ∈ s.log → id < s.next
  ranOut : ∀ race, s.phase = .abandoning race → RanOut s.log

/-- The work of the loop. -/
structure Work (s : SendLoop) : Prop where
  tasks : ∀ id, .queued id ∈ s.log →
    id ∈ s.waiting ∨ id ∈ s.ready ∨ .ran id ∈ s.log ∨ .cancelled id ∈ s.log
  futures : ∀ id, .spawned id ∈ s.log →
    id ∈ s.futures ∨ id ∈ s.phase.inHand ∨ .settled id ∈ s.log
  interest : s.log.count .acquired = s.log.count .released + s.interest

/-- The invariant. -/
structure Finishing (s : SendLoop) : Prop where
  kept : Kept SendAllowed s.log
  sends : s.Sends
  work : s.Work
  stop : s.stopRequested = false

/-- The condition on the steps: no send is registered while others are finished, no stop is
requested, and no send is done when its turn to be abandoned comes. -/
def Orderly (s : SendLoop) : SendEvent → Prop
  | .register => s.phase.finishing = false
  | .requestStop => False
  | .advance => ∀ race send abandons, s.phase = .abandoning race →
      race.abandons = send :: abandons → send ∉ s.finished
  | _ => True

variable {s : SendLoop}

theorem finishing_initial : initial.Finishing where
  kept := kept_nil
  sends := by constructor <;> simp [initial, SendPhase.abandons, SendPhase.finishing]
  work := by constructor <;> simp [initial]
  stop := rfl

/-! ### The sends -/

section Sends

variable {t : SendLoop} {l : List SendRecord}

/-- A step that only works for the loop. -/
theorem Sends.quiet (h : s.Sends) (hregistered : t.registered = s.registered)
    (hfinished : t.finished = s.finished) (hdones : t.phase.dones = s.phase.dones)
    (habandons : t.phase.abandons = s.phase.abandons)
    (hfinishing : t.phase.finishing = s.phase.finishing) (hnext : s.next ≤ t.next)
    (hlog : t.log = s.log ++ l) (hl : ∀ r ∈ l, r.isWork = true)
    (hranOut : ∀ race, t.phase = .abandoning race → RanOut t.log) : t.Sends := by
  have hmem {r : SendRecord} (hr : r.isWork = false) : r ∈ t.log ↔ r ∈ s.log := by
    rw [hlog, List.mem_append]
    refine or_iff_left fun hr' => ?_
    rw [hl r hr'] at hr
    cases hr
  constructor
  case finished => exact fun id => by rw [hfinished, hmem rfl, h.finished id]
  case registered =>
    intro id hid
    rw [hfinished, hregistered, hdones]
    exact h.registered id ((hmem rfl).mp hid)
  case finishing => exact fun hf => hregistered.trans (h.finishing (hfinishing ▸ hf))
  case nodup => rw [hregistered, habandons]; exact h.nodup
  case fresh =>
    intro id hid
    rw [hregistered, habandons] at hid
    exact ⟨(h.fresh id hid).1.trans_le hnext, fun hid' => (h.fresh id hid).2 ((hmem rfl).mp hid')⟩
  case old => exact fun id hid => (h.old id ((hmem rfl).mp hid)).trans_le hnext
  case ranOut => exact hranOut

/-- A record that neither finds the loop without work nor returns. -/
theorem ranOut_concat {l : List SendRecord} {r : SendRecord} (hr : r ≠ .ranOut)
    (hr' : r ≠ .returned) : RanOut (l ++ [r]) ↔ RanOut l := by
  rw [RanOut, since_concat]
  exact (or_iff_right hr).trans (and_iff_left hr')

/-- The log of a step that works for the loop, where no send is abandoned. -/
theorem Sends.work (h : s.Sends) {r : SendRecord} (hregistered : t.registered = s.registered)
    (hfinished : t.finished = s.finished) (hphase : t.phase = s.phase) (hnext : s.next ≤ t.next)
    (hlog : t.log = s.log ++ [r]) (hr : r.isWork = true) (hr' : r ≠ .ranOut) : t.Sends := by
  refine h.quiet hregistered hfinished (by rw [hphase]) (by rw [hphase]) (by rw [hphase]) hnext hlog
    (fun r' hr' => by rwa [List.mem_singleton.mp hr']) fun race hrace => ?_
  rw [hlog, ranOut_concat hr' (by rintro rfl; cases hr)]
  exact h.ranOut race (hphase ▸ hrace)

/-- A send is registered. -/
theorem Sends.register (h : s.Sends) (hok : s.phase.finishing = false) :
    (s.step .register).Sends where
  finished id := by simpa [step, record] using h.finished id
  registered id hid := by
    rcases List.mem_append.mp hid with hid | hid
    · have := h.registered id hid
      simp only [step, record, List.mem_append]
      tauto
    · cases List.mem_singleton.mp hid
      exact .inr (.inl (List.mem_append_right _ (List.mem_singleton_self _)))
  finishing hf := by
    rw [show (s.step .register).phase = s.phase from rfl, hok] at hf
    cases hf
  nodup := by
    have hnew : s.next ∉ s.registered ++ s.phase.abandons :=
      fun hmem => lt_irrefl _ (h.fresh _ hmem).1
    have hperm : (s.registered ++ [s.next] ++ s.phase.abandons).Perm
        (s.next :: (s.registered ++ s.phase.abandons)) := by
      rw [List.append_assoc]
      exact List.perm_middle
    exact hperm.nodup_iff.mpr (List.nodup_cons.mpr ⟨hnew, h.nodup⟩)
  fresh id hid := by
    have hid : id ∈ s.registered ++ s.phase.abandons ∨ id = s.next := by
      simpa [step, record, or_right_comm, or_comm, or_left_comm] using hid
    rcases hid with hid | rfl
    · exact ⟨(h.fresh id hid).1.trans (Nat.lt_succ_self _), by
        simpa [step, record] using (h.fresh id hid).2⟩
    · exact ⟨Nat.lt_succ_self _, fun hid => by
        have hid : .abandoned s.next ∈ s.log := by simpa [step, record] using hid
        exact lt_irrefl _ (h.old _ hid)⟩
  old id hid := by
    have hid : .abandoned id ∈ s.log := by simpa [step, record] using hid
    exact (h.old id hid).trans (Nat.lt_succ_self _)
  ranOut race hrace := (ranOut_concat (by rintro ⟨⟩) (by rintro ⟨⟩)).mpr (h.ranOut race hrace)

/-- A send is done. -/
theorem Sends.sendDone (h : s.Sends) (send : ℕ) : (s.step (.sendDone send)).Sends := by
  simp only [step]
  split
  case isFalse => exact h
  case isTrue =>
    constructor
    case finished => exact fun id => by simp [record, h.finished id, or_comm]
    case registered =>
      intro id hid
      have hid : .registered id ∈ s.log := by simpa [record] using hid
      exact (h.registered id hid).imp_left (List.mem_cons_of_mem send)
    case finishing => exact h.finishing
    case nodup => exact h.nodup
    case fresh =>
      exact fun id hid => ⟨(h.fresh id hid).1, by simpa [record] using (h.fresh id hid).2⟩
    case old => exact fun id hid => h.old id (by simpa [record] using hid)
    case ranOut =>
      exact fun race hrace =>
        (ranOut_concat (by rintro ⟨⟩) (by rintro ⟨⟩)).mpr (h.ranOut race hrace)

/-- A send that is awaited no more is done. -/
theorem mem_awaited {dones : List ℕ} {id : ℕ} (hid : id ∈ dones) :
    id ∈ s.finished ∨ id ∈ s.awaited dones := by
  rw [← List.takeWhile_append_dropWhile (p := fun id => decide (id ∈ s.finished)) (l := dones),
    List.mem_append] at hid
  exact hid.imp_left fun hid => by simpa using List.mem_takeWhile_imp hid

/-- Every send was awaited. -/
theorem Sends.all_finished (h : s.Sends) (hf : s.registered = [])
    (hdones : s.awaited s.phase.dones = []) {id : ℕ} (hid : .registered id ∈ s.log) :
    .finished id ∈ s.log := by
  rw [← h.finished]
  rcases h.registered id hid with hid | hid | hid
  · exact hid
  · rw [hf] at hid
    cases hid
  · simpa [hdones] using mem_awaited (s := s) hid

/-- `finish_pending_sends` returns. -/
theorem Sends.finishReturned (h : s.Sends) (hdones : s.awaited s.phase.dones = []) :
    s.finishReturned.Sends where
  finished id := by simpa [SendLoop.finishReturned, record] using h.finished id
  registered id hid := by
    have hid : .registered id ∈ s.log := by simpa [SendLoop.finishReturned, record] using hid
    rcases h.registered id hid with hid | hid | hid
    · exact .inl hid
    · exact .inr (.inl hid)
    · have hid := mem_awaited (s := s) hid
      rw [hdones] at hid
      exact .inl (hid.resolve_right List.not_mem_nil)
  finishing hf := by cases hf
  nodup := by
    rw [show s.finishReturned.phase.abandons = [] from rfl, List.append_nil]
    exact (List.nodup_append.mp h.nodup).1
  fresh id hid := by
    have hid : id ∈ s.registered := by
      simpa [SendLoop.finishReturned, SendPhase.abandons, record] using hid
    have hfresh := h.fresh id (List.mem_append_left _ hid)
    exact ⟨hfresh.1, by simpa [SendLoop.finishReturned, record] using hfresh.2⟩
  old id hid := h.old id (by simpa [SendLoop.finishReturned, record] using hid)
  ranOut race hrace := by cases hrace

/-- `finish_pending_sends` goes on with fewer sends to await. -/
theorem Sends.await (h : s.Sends) {phase : SendPhase}
    (hdones : phase.dones = s.awaited s.phase.dones)
    (habandons : phase.abandons.Sublist s.phase.abandons)
    (hfinishing : phase.finishing = s.phase.finishing)
    (hranOut : ∀ race, phase = .abandoning race → RanOut s.log) :
    ({ s with phase } : SendLoop).Sends where
  finished := h.finished
  registered id hid := by
    rcases h.registered id hid with hid | hid | hid
    · exact .inl hid
    · exact .inr (.inl hid)
    · exact (mem_awaited hid).imp_right fun hid => .inr (hdones ▸ hid)
  finishing hf := h.finishing (hfinishing ▸ hf)
  nodup := h.nodup.sublist ((List.Sublist.refl _).append habandons)
  fresh id hid := h.fresh id (((List.Sublist.refl _).append habandons).subset hid)
  old := h.old
  ranOut := hranOut

end Sends

/-! ### The work of the loop -/

section Work

variable {t : SendLoop} {l : List SendRecord}

/-- A step that does nothing for the loop. -/
theorem Work.quiet (h : s.Work) (hwaiting : t.waiting = s.waiting) (hready : t.ready = s.ready)
    (hfutures : t.futures = s.futures) (hinHand : t.phase.inHand = s.phase.inHand)
    (hinterest : t.interest = s.interest) (hlog : t.log = s.log ++ l)
    (hl : ∀ r ∈ l, r.isWork = false ∨ r = .ranOut) : t.Work := by
  have hmem {r : SendRecord} (hr : r.isWork = true) (hr' : r ≠ .ranOut) :
      r ∈ t.log ↔ r ∈ s.log := by
    rw [hlog, List.mem_append]
    refine or_iff_left fun hmem => (hl r hmem).elim (fun h => ?_) hr'
    rw [hr] at h
    cases h
  have hcount {r : SendRecord} (hr : r.isWork = true) (hr' : r ≠ .ranOut) :
      t.log.count r = s.log.count r := by
    have hnot : r ∉ l := fun hmem => (hl r hmem).elim (fun h => by rw [hr] at h; cases h) hr'
    rw [hlog, List.count_append, List.count_eq_zero.mpr hnot, Nat.add_zero]
  constructor
  case tasks =>
    intro id hid
    rw [hwaiting, hready, hmem rfl (by rintro ⟨⟩), hmem rfl (by rintro ⟨⟩)]
    exact h.tasks id ((hmem rfl (by rintro ⟨⟩)).mp hid)
  case futures =>
    intro id hid
    rw [hfutures, hinHand, hmem rfl (by rintro ⟨⟩)]
    exact h.futures id ((hmem rfl (by rintro ⟨⟩)).mp hid)
  case interest =>
    rw [hinterest, hcount rfl (by rintro ⟨⟩), hcount rfl (by rintro ⟨⟩)]
    exact h.interest

/-- A step of the tasks. -/
theorem Work.task (h : s.Work) (id : ℕ) (htasks : ∀ id, .queued id ∈ t.log →
      id ∈ t.waiting ∨ id ∈ t.ready ∨ .ran id ∈ t.log ∨ .cancelled id ∈ t.log)
    (hfutures : t.futures = s.futures) (hinHand : t.phase.inHand = s.phase.inHand)
    (hinterest : t.interest = s.interest)
    (hlog : t.log = s.log ∨ t.log = s.log ++ [.queued id] ∨ t.log = s.log ++ [.ran id] ∨
      t.log = s.log ++ [.cancelled id]) : t.Work where
  tasks := htasks
  futures id hid := by
    have hid := h.futures id (by
      rcases hlog with hlog | hlog | hlog | hlog <;> simpa [hlog] using hid)
    rw [hfutures, hinHand]
    rcases hlog with hlog | hlog | hlog | hlog <;> simpa [hlog] using hid
  interest := by
    rw [hinterest]
    rcases hlog with hlog | hlog | hlog | hlog <;> simpa [hlog] using h.interest

/-- A step of the futures. -/
theorem Work.future (h : s.Work) (id : ℕ) (hfutures : ∀ id, .spawned id ∈ t.log →
      id ∈ t.futures ∨ id ∈ t.phase.inHand ∨ .settled id ∈ t.log)
    (hwaiting : t.waiting = s.waiting) (hready : t.ready = s.ready)
    (hinterest : t.interest = s.interest)
    (hlog : t.log = s.log ∨ t.log = s.log ++ [.spawned id] ∨ t.log = s.log ++ [.settled id]) :
    t.Work where
  tasks id hid := by
    have hid := h.tasks id (by rcases hlog with hlog | hlog | hlog <;> simpa [hlog] using hid)
    rw [hwaiting, hready]
    rcases hlog with hlog | hlog | hlog <;> simpa [hlog] using hid
  futures := hfutures
  interest := by
    rw [hinterest]
    rcases hlog with hlog | hlog | hlog <;> simpa [hlog] using h.interest

/-- Where the loop has neither tasks, interest nor futures, no work is left. -/
theorem Work.noWork (h : s.Work) (halive : s.isAlive = false) (hinHand : s.phase.inHand = []) :
    NoWork s.log := by
  simp only [isAlive, Bool.or_eq_false_iff, Bool.not_eq_false', List.isEmpty_iff,
    bne_eq_false_iff_eq] at halive
  obtain ⟨⟨⟨hwaiting, hready⟩, hinterest⟩, hfutures⟩ := halive
  constructor
  case tasks => exact fun id hid => by simpa [hwaiting, hready] using h.tasks id hid
  case futures => exact fun id hid => .inl (by simpa [hfutures, hinHand] using h.futures id hid)
  case interest => simpa [hinterest] using h.interest

end Work

/-! ### The steps -/

namespace Finishing

/-- A step of which the log keeps one more record of the loop's work. -/
theorem of_work (h : s.Finishing) {t : SendLoop} {r : SendRecord}
    (hregistered : t.registered = s.registered) (hfinished : t.finished = s.finished)
    (hphase : t.phase = s.phase) (hnext : s.next ≤ t.next)
    (hstop : t.stopRequested = s.stopRequested) (hlog : t.log = s.log ++ [r])
    (hr : r.isWork = true) (hr' : r ≠ .ranOut) (hwork : t.Work) : t.Finishing where
  kept := by
    rw [hlog]
    refine h.kept.concat ?_
    cases r <;> trivial
  sends := h.sends.work hregistered hfinished hphase hnext hlog hr hr'
  work := hwork
  stop := hstop.trans h.stop

/-- A step that leaves the log and the sends alone. -/
theorem of_quiet (h : s.Finishing) {t : SendLoop} (hregistered : t.registered = s.registered)
    (hfinished : t.finished = s.finished) (hdones : t.phase.dones = s.phase.dones)
    (habandons : t.phase.abandons = s.phase.abandons)
    (hfinishing : t.phase.finishing = s.phase.finishing) (hnext : t.next = s.next)
    (hstop : t.stopRequested = s.stopRequested) (hlog : t.log = s.log)
    (hranOut : ∀ race, t.phase = .abandoning race → RanOut t.log) (hwork : t.Work) :
    t.Finishing where
  kept := by rw [hlog]; exact h.kept
  sends := h.sends.quiet (l := []) hregistered hfinished hdones habandons hfinishing
    (le_of_eq hnext.symm) (by rw [hlog, List.append_nil]) (fun _ hr => by cases hr) hranOut
  work := hwork
  stop := hstop.trans h.stop

/-- The tasks, the interest and the futures. -/
theorem queueTask (h : s.Finishing) : (s.step .queueTask).Finishing := by
  refine h.of_work rfl rfl rfl (Nat.le_succ _) rfl rfl rfl (by rintro ⟨⟩)
    (h.work.task s.next (fun id hid => ?_) rfl rfl rfl (.inr (.inl rfl)))
  have hid : .queued id ∈ s.log ∨ id = s.next := by simpa [step, record] using hid
  have htasks := h.work.tasks id
  simp only [step, record, List.mem_append, List.mem_singleton]
  tauto

theorem taskReady (h : s.Finishing) (task : ℕ) : (s.step (.taskReady task)).Finishing := by
  simp only [step]
  split
  case isFalse => exact h
  case isTrue =>
    refine h.of_quiet rfl rfl rfl rfl rfl rfl rfl rfl h.sends.ranOut
      (h.work.task task (fun id hid => ?_) rfl rfl rfl (.inl rfl))
    rcases eq_or_ne id task with rfl | hne
    · exact .inr (.inl (List.mem_append_right _ (List.mem_singleton_self _)))
    · exact (h.work.tasks id hid).imp (List.mem_erase_of_ne hne).mpr (·.imp_left
        fun hid => List.mem_append_left _ hid)

theorem cancelTask (h : s.Finishing) (task : ℕ) : (s.step (.cancelTask task)).Finishing := by
  simp only [step]
  split
  case isFalse => exact h
  case isTrue =>
    refine h.of_work rfl rfl rfl le_rfl rfl rfl rfl (by rintro ⟨⟩)
      (h.work.task task (fun id hid => ?_) rfl rfl rfl (.inr (.inr (.inr rfl))))
    have hid : .queued id ∈ s.log := by simpa [record] using hid
    rcases eq_or_ne id task with rfl | hne
    · exact .inr (.inr (.inr (List.mem_append_right _ (List.mem_singleton_self _))))
    · have htasks := h.work.tasks id hid
      simp only [record, List.mem_erase_of_ne hne, List.mem_append]
      tauto

theorem acquire (h : s.Finishing) : (s.step .acquire).Finishing := by
  refine h.of_work rfl rfl rfl le_rfl rfl rfl rfl (by rintro ⟨⟩) ⟨?_, ?_, ?_⟩
  · simpa [step, record] using h.work.tasks
  · simpa [step, record] using h.work.futures
  · simp [step, record, h.work.interest, Nat.add_assoc]

theorem release (h : s.Finishing) : (s.step .release).Finishing := by
  simp only [step]
  cases hinterest : s.interest with
  | zero => exact h
  | succ n =>
    refine h.of_work rfl rfl rfl le_rfl rfl rfl rfl (by rintro ⟨⟩) ⟨?_, ?_, ?_⟩
    · simpa [record] using h.work.tasks
    · simpa [record] using h.work.futures
    · simp [record, h.work.interest, hinterest]
      omega

theorem spawn (h : s.Finishing) : (s.step .spawn).Finishing := by
  refine h.of_work rfl rfl rfl (Nat.le_succ _) rfl rfl rfl (by rintro ⟨⟩)
    (h.work.future s.next (fun id hid => ?_) rfl rfl rfl (.inr (.inl rfl)))
  have hid : .spawned id ∈ s.log ∨ id = s.next := by simpa [step, record] using hid
  have hfutures := h.work.futures id
  simp only [step, record, List.mem_append, List.mem_singleton]
  tauto

theorem register (h : s.Finishing) (hok : s.phase.finishing = false) :
    (s.step .register).Finishing where
  kept := h.kept.concat trivial
  sends := h.sends.register hok
  work := h.work.quiet (l := [.registered s.next]) rfl rfl rfl rfl rfl rfl fun r hr =>
    .inl (by rw [List.mem_singleton.mp hr]; rfl)
  stop := h.stop

theorem sendDone (h : s.Finishing) (send : ℕ) : (s.step (.sendDone send)).Finishing := by
  have hsends := h.sends.sendDone send
  simp only [step] at hsends ⊢
  split
  case isFalse => exact h
  case isTrue hlt =>
    rw [if_pos hlt] at hsends
    exact
      { kept := h.kept.concat trivial
        sends := hsends
        work := h.work.quiet (l := [.finished send]) rfl rfl rfl rfl rfl rfl fun r hr =>
          .inl (by rw [List.mem_singleton.mp hr]; rfl)
        stop := h.stop }

/-- `finish_pending_sends` returns, once it has awaited its sends. -/
theorem returns (h : s.Finishing) (hregistered : s.registered = [])
    (hdones : s.awaited s.phase.dones = []) (hinHand : s.phase.inHand = []) :
    s.finishReturned.Finishing where
  kept := h.kept.concat fun id hid => h.sends.all_finished hregistered hdones hid
  sends := h.sends.finishReturned hdones
  work := h.work.quiet (l := [.returned]) rfl rfl rfl hinHand.symm rfl rfl fun r hr =>
    .inl (by rw [List.mem_singleton.mp hr]; rfl)
  stop := h.stop

section Driver

variable {race : Option Race} {point point' : DriverPoint}

/-- The driver gets to another point. -/
theorem move (h : s.Finishing) (hphase : s.phase = .driving race point)
    (hinHand : (SendPhase.driving race point').inHand = (SendPhase.driving race point).inHand) :
    ({ s with phase := .driving race point' } : SendLoop).Finishing := by
  refine h.of_quiet rfl rfl ?_ ?_ ?_ rfl rfl rfl (fun race' hrace => by cases hrace)
    (h.work.quiet (l := []) rfl rfl rfl ?_ rfl (List.append_nil _).symm fun r hr => by cases hr)
  all_goals rw [hphase]
  · cases race <;> rfl
  · cases race <;> rfl
  · cases race <;> rfl
  · exact hinHand

/-- The driver finds that no work is left, and returns. -/
theorem ranOut (h : s.Finishing) (hphase : s.phase = .driving race point)
    (hinHand : s.phase.inHand = []) (halive : s.isAlive = false) :
    ({ s.record .ranOut with phase := race.elim .outside .abandoning } : SendLoop).Finishing where
  kept := h.kept.concat (h.work.noWork halive hinHand)
  sends := by
    refine h.sends.quiet (l := [.ranOut]) rfl rfl ?_ ?_ ?_ le_rfl rfl
      (fun r hr => by rw [List.mem_singleton.mp hr]; rfl) fun _ _ => since_concat.mpr (.inl rfl)
    all_goals rw [hphase]; cases race <;> rfl
  work := by
    refine h.work.quiet (l := [.ranOut]) rfl rfl rfl ?_ rfl rfl fun r hr =>
      .inr (List.mem_singleton.mp hr)
    rw [hinHand]
    cases race <;> rfl
  stop := h.stop

/-- A step is over. -/
theorem stepped (h : s.Finishing) {ranAny : Bool}
    (hphase : s.phase = .driving race (.batch [] ranAny)) :
    ({ (s.stepped ranAny).1 with phase := drivenTo race (s.stepped ranAny).2 } :
      SendLoop).Finishing := by
  rw [SendLoop.stepped, h.stop]
  cases ranAny with
  | true => exact h.move hphase rfl
  | false =>
    cases halive : s.isAlive with
    | true => exact h.move hphase rfl
    | false => exact h.ranOut hphase (by rw [hphase]; rfl) halive

/-- A task of the batch runs, if it is still ready. -/
theorem runTask (h : s.Finishing) {task : ℕ} {tasks : List ℕ} {ranAny : Bool}
    (hphase : s.phase = .driving race (.batch (task :: tasks) ranAny)) (hready : task ∈ s.ready) :
    ({ { s with ready := s.ready.erase task }.record (.ran task) with
      phase := .driving race (.batch tasks true) } : SendLoop).Finishing := by
  have hran : (SendLoop.record { s with ready := s.ready.erase task } (.ran task)).Finishing := by
    refine h.of_work rfl rfl rfl le_rfl rfl rfl rfl (by rintro ⟨⟩)
      (h.work.task task (fun id hid => ?_) rfl rfl rfl (.inr (.inr (.inl rfl))))
    have hid : .queued id ∈ s.log := by simpa [record] using hid
    have htasks := h.work.tasks id hid
    rcases eq_or_ne id task with rfl | hne
    · exact .inr (.inr (.inl (List.mem_append_right _ (List.mem_singleton_self _))))
    · simp only [record, List.mem_erase_of_ne hne, List.mem_append]
      tauto
  exact hran.move hphase rfl

/-- A future is settled. -/
theorem settle (h : s.Finishing) {future : ℕ} {completed : List ℕ}
    (hphase : s.phase = .driving race (.settling (future :: completed))) :
    ({ s.record (.settled future) with phase := .driving race (.settling completed) } :
      SendLoop).Finishing where
  kept := h.kept.concat trivial
  sends := by
    refine h.sends.quiet (l := [.settled future]) rfl rfl ?_ ?_ ?_ le_rfl rfl
      (fun r hr => by rw [List.mem_singleton.mp hr]; rfl) fun race hrace => by cases hrace
    all_goals rw [hphase]; cases race <;> rfl
  work := by
    refine h.work.future future (fun id hid => ?_) rfl rfl rfl (.inr (.inr rfl))
    have hfutures := h.work.futures id (by simpa [record] using hid)
    rw [hphase] at hfutures
    simp only [SendPhase.inHand, List.mem_cons] at hfutures
    simp only [record, SendPhase.inHand, List.mem_append, List.mem_singleton,
      SendRecord.settled.injEq]
    tauto
  stop := h.stop

/-- The futures are polled. -/
theorem polled (h : s.Finishing) {progressed jobs : Bool}
    (hphase : s.phase = .driving race (.polling progressed)) :
    ({ (s.polled progressed jobs).1 with phase := .driving race (s.polled progressed jobs).2 } :
      SendLoop).Finishing := by
  simp only [SendLoop.polled]
  split
  case isTrue => exact h.move hphase rfl
  case isFalse =>
    refine h.of_quiet rfl rfl ?_ ?_ ?_ rfl rfl rfl (fun race' hrace => by cases hrace)
      (h.work.future 0 (fun id hid => ?_) rfl rfl rfl (.inl rfl))
    · rw [hphase]; cases race <;> rfl
    · rw [hphase]; cases race <;> rfl
    · rw [hphase]; cases race <;> rfl
    · have hfutures := h.work.futures id hid
      rw [hphase] at hfutures
      simp only [SendPhase.inHand, List.mem_filter, List.not_mem_nil, false_or,
        decide_eq_true_eq] at hfutures ⊢
      tauto

/-- **The driver goes on.** -/
theorem driver (h : s.Finishing) (hphase : s.phase = .driving race point) :
    ({ (s.driver point).1 with phase := drivenTo race (s.driver point).2 } :
      SendLoop).Finishing := by
  cases point with
  | turn => exact h.move hphase rfl
  | batch tasks ranAny =>
    cases tasks with
    | nil => exact h.stepped hphase
    | cons task tasks =>
      simp only [SendLoop.driver]
      split
      case isTrue hready => exact h.runTask hphase hready
      case isFalse => exact h.move hphase rfl
  | settling completed =>
    cases completed with
    | nil => exact h.move hphase rfl
    | cons future completed => exact h.settle hphase
  | start | yielding | idle | polling progressed => exact h.move hphase rfl

end Driver

/-- The phase changes where no driver has anything in hand. -/
theorem enter (h : s.Finishing) {phase : SendPhase} (hdones : phase.dones = s.phase.dones)
    (habandons : phase.abandons = s.phase.abandons)
    (hfinishing : phase.finishing = s.phase.finishing) (hinHand : phase.inHand = s.phase.inHand)
    (hranOut : ∀ race, phase = .abandoning race → RanOut s.log) :
    ({ s with phase } : SendLoop).Finishing :=
  h.of_quiet rfl rfl hdones habandons hfinishing rfl rfl rfl hranOut
    (h.work.quiet (l := []) rfl rfl rfl hinHand rfl (List.append_nil _).symm fun r hr => by
      cases hr)

/-- Fewer sends are awaited. -/
theorem await (h : s.Finishing) {phase : SendPhase} (hdones : phase.dones = s.awaited s.phase.dones)
    (habandons : phase.abandons.Sublist s.phase.abandons)
    (hfinishing : phase.finishing = s.phase.finishing) (hinHand : phase.inHand = s.phase.inHand)
    (hranOut : ∀ race, phase = .abandoning race → RanOut s.log) :
    ({ s with phase } : SendLoop).Finishing where
  kept := h.kept
  sends := h.sends.await hdones habandons hfinishing hranOut
  work := h.work.quiet (l := []) rfl rfl rfl hinHand rfl (List.append_nil _).symm fun r hr => by
    cases hr
  stop := h.stop

/-- What a driver has in hand where it awaits, and where it goes on. -/
theorem inHand_resumed (race race' : Option Race) {point : DriverPoint} (woken : Bool)
    (hawaits : point.awaits = true) :
    (SendPhase.driving race' (resumed woken point)).inHand =
      (SendPhase.driving race point).inHand := by
  cases point with
  | idle => cases woken <;> rfl
  | start | yielding => rfl
  | _ => cases hawaits

/-- **The future that awaits is polled.** -/
theorem resume (h : s.Finishing) (woken : Bool) : (s.resume woken).Finishing := by
  simp only [SendLoop.resume]
  split
  case h_1 race point hphase =>
    have hregistered := h.sends.finishing (by rw [hphase]; rfl)
    split
    case isFalse => exact h
    case isTrue hawaits =>
      have hinHand : s.phase.inHand = [] := by
        rw [hphase]
        cases point <;> first | rfl | cases hawaits
      split
      case h_1 hdones => exact h.returns hregistered (by rw [hphase]; exact hdones) hinHand
      case h_2 =>
        refine h.await (by rw [hphase]; rfl) (by rw [hphase]; exact .refl _) (by rw [hphase]; rfl)
          ?_ fun race' hrace => by cases hrace
        rw [hphase]
        exact inHand_resumed _ _ woken hawaits
  case h_2 point hphase =>
    split
    case isFalse => exact h
    case isTrue hawaits =>
      refine h.enter (by rw [hphase]; rfl) (by rw [hphase]; rfl) (by rw [hphase]; rfl) ?_
        fun race hrace => by cases hrace
      rw [hphase]
      exact inHand_resumed _ _ woken hawaits
  case h_3 dones hphase =>
    have hregistered := h.sends.finishing (by rw [hphase]; rfl)
    split
    case h_1 hdones =>
      exact h.returns hregistered (by rw [hphase]; exact hdones) (by rw [hphase]; rfl)
    case h_2 =>
      exact h.await (by rw [hphase]; rfl) (by rw [hphase]; exact .refl _) (by rw [hphase]; rfl)
        (by rw [hphase]; rfl) fun race' hrace => by cases hrace
  case h_4 => exact h

/-- A send is abandoned. -/
theorem abandon (h : s.Finishing) {dones abandons : List ℕ} {send : ℕ}
    (hphase : s.phase = .abandoning ⟨dones, send :: abandons⟩) (hok : send ∉ s.finished) :
    ({ s.record (.abandoned send) with phase := .abandoning ⟨dones, abandons⟩ } :
      SendLoop).Finishing := by
  have hranOut := h.sends.ranOut _ hphase
  have hpending : s.phase.abandons = send :: abandons := by rw [hphase]; rfl
  have hregistered := h.sends.finishing (by rw [hphase]; rfl)
  have hfresh := h.sends.fresh send (by rw [hpending]; simp)
  have hnodup : send ∉ abandons ∧ abandons.Nodup := by
    have hnodup := h.sends.nodup
    rwa [hregistered, hpending, List.nil_append, List.nodup_cons] at hnodup
  constructor
  case kept =>
    exact h.kept.concat ⟨hfresh.2, fun hid => hok ((h.sends.finished send).mpr hid), hranOut⟩
  case sends =>
    constructor
    case finished => exact fun id => by simpa [record] using h.sends.finished id
    case registered =>
      intro id hid
      have hid := h.sends.registered id (by simpa [record] using hid)
      rw [hphase] at hid
      exact hid
    case finishing => exact fun _ => hregistered
    case nodup =>
      change (s.registered ++ abandons).Nodup
      rw [hregistered]
      exact hnodup.2
    case fresh =>
      intro id hid
      have hid : id ∈ abandons := by
        change id ∈ s.registered ++ abandons at hid
        rwa [hregistered, List.nil_append] at hid
      have hold := h.sends.fresh id (by rw [hpending]; simp [hid])
      have hne : id ≠ send := fun heq => hnodup.1 (heq ▸ hid)
      exact ⟨hold.1, by simpa [record, hne] using hold.2⟩
    case old =>
      intro id hid
      have hid : .abandoned id ∈ s.log ∨ id = send := by simpa [record] using hid
      rcases hid with hid | rfl
      · exact h.sends.old id hid
      · exact hfresh.1
    case ranOut => exact fun _ _ => (ranOut_concat (by rintro ⟨⟩) (by rintro ⟨⟩)).mpr hranOut
  case work =>
    refine h.work.quiet (l := [.abandoned send]) rfl rfl rfl ?_ rfl rfl fun r hr =>
      .inl (by rw [List.mem_singleton.mp hr]; rfl)
    rw [hphase]
    rfl
  case stop => exact h.stop

/-- **The code of the loop goes on.** -/
theorem advance (h : s.Finishing) (hok : Orderly s .advance) : s.advance.Finishing := by
  simp only [SendLoop.advance]
  split
  case h_1 race point hphase => exact h.driver hphase
  case h_2 dones send abandons hphase => exact h.abandon hphase (hok _ _ _ hphase rfl)
  case h_3 dones hphase =>
    exact h.enter (by rw [hphase]; rfl) (by rw [hphase]; rfl) (by rw [hphase]; rfl)
      (by rw [hphase]; rfl) fun race hrace => by cases hrace
  case h_4 => exact h

/-- `finish_pending_sends` is called. -/
theorem finish (h : s.Finishing) : (s.step .finish).Finishing := by
  simp only [step]
  split
  case isFalse => exact h
  case isTrue hphase =>
    split
    case isTrue hregistered =>
      exact h.returns hregistered (by rw [hphase]; rfl) (by rw [hphase]; rfl)
    case isFalse =>
      have hnodup := h.sends.nodup
      have hfresh := h.sends.fresh
      rw [hphase] at hnodup hfresh
      constructor
      case kept => exact h.kept
      case sends =>
        constructor
        case finished => exact h.sends.finished
        case registered =>
          intro id hid
          have hid := h.sends.registered id hid
          rw [hphase] at hid
          exact hid.imp_right fun hid => .inr (hid.resolve_right List.not_mem_nil)
        case finishing => exact fun _ => rfl
        case nodup => simpa [SendPhase.abandons] using hnodup
        case fresh => simpa [SendPhase.abandons] using hfresh
        case old => exact h.sends.old
        case ranOut => exact fun race hrace => by cases hrace
      case work =>
        refine h.work.quiet (l := []) rfl rfl rfl ?_ rfl (List.append_nil _).symm fun r hr => by
          cases hr
        rw [hphase]
        rfl
      case stop => exact h.stop

/-- **The step.** -/
theorem step {ev : SendEvent} (h : s.Finishing) (hok : Orderly s ev) : (s.step ev).Finishing := by
  cases ev with
  | register => exact h.register hok
  | sendDone send => exact h.sendDone send
  | queueTask => exact h.queueTask
  | taskReady task => exact h.taskReady task
  | cancelTask task => exact h.cancelTask task
  | acquire => exact h.acquire
  | release => exact h.release
  | spawn => exact h.spawn
  | futureDone future =>
    exact h.of_quiet rfl rfl rfl rfl rfl rfl rfl rfl h.sends.ranOut
      ⟨h.work.tasks, h.work.futures, h.work.interest⟩
  | requestStop => exact hok.elim
  | finish => exact h.finish
  | drive =>
    simp only [SendLoop.step]
    split
    case isTrue hphase =>
      exact h.enter (by rw [hphase]; rfl) (by rw [hphase]; rfl) (by rw [hphase]; rfl)
        (by rw [hphase]; rfl) fun race hrace => by cases hrace
    case isFalse => exact h
  | drop =>
    simp only [SendLoop.step]
    split
    case h_1 point hphase =>
      split
      case isTrue hawaits =>
        refine h.enter (by rw [hphase]; rfl) (by rw [hphase]; rfl) (by rw [hphase]; rfl) ?_
          fun race hrace => by cases hrace
        rw [hphase]
        cases point <;> first | rfl | cases hawaits
      case isFalse => exact h
    case h_2 => exact h
  | advance => exact h.advance hok
  | polled jobs =>
    simp only [SendLoop.step]
    split
    case h_1 race progressed hphase => exact h.polled hphase
    case h_2 => exact h
  | resume woken => exact h.resume woken

end Finishing

/-! ### The next driver -/

section Driver

variable {t u : SendLoop} {race : Option Race} {id : ℕ}

/-- A task ran or was cancelled, or is ready and about to run. -/
def Ran (id : ℕ) (s : SendLoop) : Prop :=
  (.ran id ∈ s.log ∨ .cancelled id ∈ s.log) ∨ id ∈ s.ready ∧ s.phase.Runs id

/-- A future that has completed was settled, or is about to be. -/
def Settled (id : ℕ) (s : SendLoop) : Prop :=
  .settled id ∈ s.log ∨ id ∈ s.phase.inHand ∨ id ∈ s.futures ∧ id ∈ s.completed ∧
    ∃ race progressed, s.phase = .driving race (.polling progressed)

/-- Records stay. -/
theorem log_driver (s : SendLoop) (point : DriverPoint) : s.log ⊆ (s.driver point).1.log := by
  have happend (l : List SendRecord) : s.log ⊆ s.log ++ l := List.subset_append_left _ _
  cases point with
  | batch tasks ranAny =>
    cases tasks with
    | nil =>
      simp only [driver, stepped]
      split_ifs
      · exact happend _
      · exact fun _ => id
      · exact fun _ => id
      · exact happend _
    | cons task tasks =>
      simp only [driver]
      split_ifs
      · exact happend _
      · exact fun _ => id
  | settling completed =>
    cases completed with
    | nil => exact fun _ => id
    | cons future completed => exact happend _
  | start | turn | yielding | idle | polling progressed => exact fun _ => id

theorem log_resume (s : SendLoop) (woken : Bool) : s.log ⊆ (s.resume woken).log := by
  simp only [SendLoop.resume]
  split
  · split_ifs
    · split
      · exact List.subset_append_left _ _
      · exact fun _ => id
    · exact fun _ => id
  · split_ifs <;> exact fun _ => id
  · split
    · exact List.subset_append_left _ _
    · exact fun _ => id
  · exact fun _ => id

theorem log_step (s : SendLoop) (ev : SendEvent) : s.log ⊆ (s.step ev).log := by
  have happend (l : List SendRecord) : s.log ⊆ s.log ++ l := List.subset_append_left _ _
  cases ev with
  | register | queueTask | acquire | spawn => exact happend _
  | futureDone | requestStop => exact fun _ => id
  | sendDone | cancelTask =>
    simp only [step]
    split_ifs
    · exact happend _
    · exact fun _ => id
  | taskReady | drive =>
    simp only [step]
    split_ifs <;> exact fun _ => id
  | release =>
    simp only [step]
    split
    · exact fun _ => id
    · exact happend _
  | finish =>
    simp only [step]
    split_ifs
    · exact happend _
    · exact fun _ => id
    · exact fun _ => id
  | drop =>
    simp only [step]
    split
    · split_ifs <;> exact fun _ => id
    · exact fun _ => id
  | advance =>
    simp only [step, advance]
    split
    · exact log_driver s _
    · exact happend _
    · exact fun _ => id
    · exact fun _ => id
  | polled jobs =>
    simp only [step]
    split
    · simp only [polled]
      split_ifs <;> exact fun _ => id
    · exact fun _ => id
  | resume woken => exact log_resume s woken

/-- **The events that are not the driver's** leave it in its step, and the tasks ready that are not
cancelled. -/
theorem step_of_stepping (h : s.phase.stepping = true) {ev : SendEvent} (hev : ev ≠ .advance) :
    (s.step ev).phase = s.phase ∧
      ∀ id ∈ s.ready, id ∈ (s.step ev).ready ∨ .cancelled id ∈ (s.step ev).log := by
  obtain ⟨race, point, hphase, hawaits, hpoint⟩ : ∃ race point, s.phase = .driving race point ∧
      point.awaits = false ∧ ∀ progressed, point ≠ .polling progressed := by
    cases hphase : s.phase with
    | driving race point =>
      rw [hphase] at h
      cases point with
      | turn | batch => exact ⟨race, _, rfl, rfl, fun _ => DriverPoint.noConfusion⟩
      | _ => cases h
    | _ => rw [hphase] at h; cases h
  have hsame {u : SendLoop} (hu : u = s) : u.phase = s.phase ∧
      ∀ id ∈ s.ready, id ∈ u.ready ∨ .cancelled id ∈ u.log := by
    rw [hu]
    exact ⟨rfl, fun _ => .inl⟩
  cases ev with
  | advance => exact absurd rfl hev
  | register | queueTask | acquire | spawn | futureDone | requestStop => exact ⟨rfl, fun _ => .inl⟩
  | sendDone send =>
    simp only [step]
    split_ifs <;> exact ⟨rfl, fun _ => .inl⟩
  | taskReady task =>
    simp only [step]
    split_ifs
    · exact ⟨rfl, fun _ hid => .inl (List.mem_append_left _ hid)⟩
    · exact ⟨rfl, fun _ => .inl⟩
  | cancelTask task =>
    simp only [step]
    split_ifs
    · refine ⟨rfl, fun id hid => ?_⟩
      rcases eq_or_ne id task with rfl | hne
      · exact .inr (List.mem_append_right _ (List.mem_singleton_self _))
      · exact .inl ((List.mem_erase_of_ne hne).mpr hid)
    · exact ⟨rfl, fun _ => .inl⟩
  | release =>
    simp only [step]
    split <;> exact ⟨rfl, fun _ => .inl⟩
  | finish => exact hsame (by simp [step, hphase])
  | drive => exact hsame (by simp [step, hphase])
  | drop => exact hsame (by cases race <;> simp [step, hphase, hawaits])
  | polled jobs =>
    refine hsame ?_
    simp only [step, hphase]
    split
    case h_1 heq => cases heq; exact absurd rfl (hpoint _)
    case h_2 => rfl
  | resume woken => exact hsame (by cases race <;> simp [step, SendLoop.resume, hphase, hawaits])

/-- A task that is to run in the step is one that is ready. -/
theorem stepping_of_runs {phase : SendPhase} (h : phase.Runs id) :
    phase.stepping = true := by
  cases phase with
  | driving race point =>
    cases point with
    | turn | batch => rfl
    | _ => exact h.elim
  | _ => exact h.elim

/-- **The step** of a task that is ready. -/
theorem Ran.step (h : Ran id s) (ev : SendEvent) : Ran id (s.step ev) := by
  have hlog := log_step s ev
  rcases h with hdone | ⟨hready, hruns⟩
  · exact .inl (hdone.imp (hlog ·) (hlog ·))
  by_cases hev : ev = .advance
  · subst hev
    cases hphase : s.phase with
    | driving race point =>
      rw [hphase] at hruns
      cases point with
      | turn =>
        refine .inr ?_
        simp only [SendLoop.step, advance, hphase, driver]
        exact ⟨hready, hready⟩
      | batch tasks ranAny =>
        cases tasks with
        | nil => exact absurd hruns List.not_mem_nil
        | cons task tasks =>
          simp only [Ran, SendLoop.step, advance, hphase, driver]
          split_ifs with htask
          · rcases List.mem_cons.mp hruns with rfl | htasks
            · exact .inl (.inl (List.mem_append_right _ (List.mem_singleton_self _)))
            · rcases eq_or_ne id task with rfl | hne
              · exact .inl (.inl (List.mem_append_right _ (List.mem_singleton_self _)))
              · exact .inr ⟨(List.mem_erase_of_ne hne).mpr hready, htasks⟩
          · rcases List.mem_cons.mp hruns with rfl | htasks
            · exact absurd hready htask
            · exact .inr ⟨hready, htasks⟩
      | _ => exact hruns.elim
    | _ => rw [hphase] at hruns; exact hruns.elim
  · obtain ⟨hphase, hkept⟩ := step_of_stepping (stepping_of_runs hruns) hev
    rcases hkept id hready with hready | hcancelled
    · exact .inr ⟨hready, hphase ▸ hruns⟩
    · exact .inl (.inr hcancelled)

/-- **A step of a driver runs what is ready**: when it is over, each task that was ready when it
began ran, or was cancelled meanwhile. -/
theorem Ran.of_run (hphase : s.phase = .driving race .turn) (hrun : sendMachine.Run s u)
    (hover : u.phase.stepping = false) (hid : id ∈ s.ready) :
    .ran id ∈ u.log ∨ .cancelled id ∈ u.log := by
  have hran : Ran id u := by
    refine hrun.inv (.inr ⟨hid, by rw [hphase]; trivial⟩) fun s ev u hs _ hu => ?_
    obtain rfl : s.step ev = u := Option.some.inj hu
    exact hs.step ev
  refine hran.resolve_right fun hruns => ?_
  rw [stepping_of_runs hruns.2] at hover
  cases hover

/-- **The events that are not the driver's** leave its futures as they are while it polls or
settles them. -/
theorem step_of_settling (h : s.phase.settling = true) {ev : SendEvent} (hev : ev ≠ .advance)
    (hpolled : ∀ jobs, ev ≠ .polled jobs) :
    (s.step ev).phase = s.phase ∧ s.futures ⊆ (s.step ev).futures ∧
      s.completed ⊆ (s.step ev).completed := by
  obtain ⟨race, point, hphase, hawaits⟩ : ∃ race point, s.phase = .driving race point ∧
      point.awaits = false := by
    cases hphase : s.phase with
    | driving race point =>
      rw [hphase] at h
      cases point with
      | polling | settling => exact ⟨race, _, rfl, rfl⟩
      | _ => cases h
    | _ => rw [hphase] at h; cases h
  have hsame {u : SendLoop} (hu : u = s) : u.phase = s.phase ∧ s.futures ⊆ u.futures ∧
      s.completed ⊆ u.completed := by
    rw [hu]
    exact ⟨rfl, fun _ => id, fun _ => id⟩
  cases ev with
  | advance => exact absurd rfl hev
  | polled jobs => exact absurd rfl (hpolled jobs)
  | register | queueTask | acquire | requestStop => exact ⟨rfl, fun _ => id, fun _ => id⟩
  | spawn => exact ⟨rfl, List.subset_append_left _ _, fun _ => id⟩
  | futureDone future => exact ⟨rfl, fun _ => id, List.subset_cons_self _ _⟩
  | sendDone | cancelTask | taskReady =>
    simp only [step]
    split_ifs <;> exact ⟨rfl, fun _ => id, fun _ => id⟩
  | release =>
    simp only [step]
    split <;> exact ⟨rfl, fun _ => id, fun _ => id⟩
  | finish => exact hsame (by simp [step, hphase])
  | drive => exact hsame (by simp [step, hphase])
  | drop => exact hsame (by cases race <;> simp [step, hphase, hawaits])
  | resume woken => exact hsame (by cases race <;> simp [step, SendLoop.resume, hphase, hawaits])

/-- **The step** of a future that has completed. -/
theorem Settled.step (h : Settled id s) (ev : SendEvent) : Settled id (s.step ev) := by
  have hlog := log_step s ev
  rcases h with hsettled | hhand | ⟨hfuture, hcompleted, race, progressed, hphase⟩
  · exact .inl (hlog hsettled)
  · obtain ⟨race, completed, hphase⟩ : ∃ race completed,
        s.phase = .driving race (.settling completed) := by
      cases hphase : s.phase with
      | driving race point =>
        rw [hphase] at hhand
        cases point with
        | settling completed => exact ⟨race, completed, rfl⟩
        | _ => exact absurd hhand List.not_mem_nil
      | _ => rw [hphase] at hhand; exact absurd hhand List.not_mem_nil
    by_cases hev : ev = .advance
    · subst hev
      rw [hphase] at hhand
      cases completed with
      | nil => exact absurd hhand List.not_mem_nil
      | cons future completed =>
        simp only [Settled, SendLoop.step, advance, hphase, driver]
        rcases List.mem_cons.mp hhand with rfl | hhand
        · exact .inl (List.mem_append_right _ (List.mem_singleton_self _))
        · exact .inr (.inl hhand)
    · by_cases hpolled : ∃ jobs, ev = .polled jobs
      · obtain ⟨jobs, rfl⟩ := hpolled
        simp only [SendLoop.step, hphase]
        exact .inr (.inl hhand)
      · obtain ⟨hsame, -⟩ := step_of_settling (by rw [hphase]; rfl) hev
          fun jobs heq => hpolled ⟨jobs, heq⟩
        exact .inr (.inl (hsame ▸ hhand))
  · by_cases hpolled : ∃ jobs, ev = .polled jobs
    · obtain ⟨jobs, rfl⟩ := hpolled
      have hdone : id ∈ s.futures.filter fun id => id ∈ s.completed :=
        List.mem_filter.mpr ⟨hfuture, decide_eq_true hcompleted⟩
      simp only [Settled, SendLoop.step, hphase, polled]
      rw [if_neg fun hnone => absurd (hnone.1 ▸ hdone) List.not_mem_nil]
      exact .inr (.inl hdone)
    · by_cases hev : ev = .advance
      · subst hev
        simp only [SendLoop.step, advance, hphase, driver]
        exact .inr (.inr ⟨hfuture, hcompleted, race, progressed, rfl⟩)
      · obtain ⟨hsame, hfutures, hcompletes⟩ := step_of_settling (by rw [hphase]; rfl) hev
          fun jobs heq => hpolled ⟨jobs, heq⟩
        exact .inr (.inr ⟨hfutures hfuture, hcompletes hcompleted, race, progressed,
          hsame.trans hphase⟩)

/-- **A poll settles what has completed**: when the driver goes on, each future that was in flight
and had completed is settled. -/
theorem Settled.of_run {progressed : Bool} (hphase : s.phase = .driving race (.polling progressed))
    (hrun : sendMachine.Run s u) (hover : u.phase.settling = false) (hfuture : id ∈ s.futures)
    (hcompleted : id ∈ s.completed) : .settled id ∈ u.log := by
  have hsettled : Settled id u := by
    refine hrun.inv (.inr (.inr ⟨hfuture, hcompleted, race, progressed, hphase⟩))
      fun s ev u hs _ hu => ?_
    obtain rfl : s.step ev = u := Option.some.inj hu
    exact hs.step ev
  rcases hsettled with hsettled | hhand | ⟨-, -, race, progressed, hphase⟩
  · exact hsettled
  · cases hphase : u.phase with
    | driving race point =>
      rw [hphase] at hhand hover
      cases point with
      | settling completed => cases hover
      | _ => exact absurd hhand List.not_mem_nil
    | _ => rw [hphase] at hhand; exact absurd hhand List.not_mem_nil
  · rw [hphase] at hover
    cases hover

/-- A run in which nothing happens but that the driver goes on. -/
abbrev DriverRun : SendLoop → SendLoop → Prop := sendMachine.RunWhere fun _ ev => ev.ofDriver = true

/-- The driver runs its batch. -/
theorem exists_batch (tasks : List ℕ) {ranAny : Bool}
    (hphase : s.phase = .driving race (.batch tasks ranAny)) :
    ∃ u ranAny', DriverRun s u ∧ u.phase = .driving race (.batch [] ranAny') ∧
      (∀ id ∈ tasks, id ∈ s.ready → .ran id ∈ u.log) ∧ s.log ⊆ u.log ∧ u.futures = s.futures ∧
      u.completed = s.completed ∧ u.stopRequested = s.stopRequested := by
  induction tasks generalizing s ranAny with
  | nil =>
    exact ⟨s, ranAny, .refl s, hphase, fun id hid => absurd hid List.not_mem_nil, fun _ => id, rfl,
      rfl, rfl⟩
  | cons task tasks ih =>
    by_cases htask : task ∈ s.ready
    · have hstep : s.step .advance =
          { ({ s with ready := s.ready.erase task }.record (.ran task) : SendLoop) with
            phase := .driving race (.batch tasks true) } := by
        simp only [step, advance, hphase, driver, if_pos htask]
        rfl
      have hnext : (s.step .advance).phase = .driving race (.batch tasks true) := by rw [hstep]
      have hfirst : DriverRun s (s.step .advance) := (Machine.RunWhere.refl s).tail_ok _ rfl rfl
      obtain ⟨u, ranAny', hrun, hu, hran, hlog, hfutures, hcompleted, hstop⟩ := ih hnext
      rw [hstep] at hran hlog hfutures hcompleted hstop
      refine ⟨u, ranAny', hfirst.trans hrun, hu, ?_,
        fun _ hr => hlog (List.mem_append_left _ hr), hfutures, hcompleted, hstop⟩
      intro id hid hready
      rcases eq_or_ne id task with rfl | hne
      · exact hlog (List.mem_append_right _ (List.mem_singleton_self _))
      · exact hran id ((List.mem_cons.mp hid).resolve_left hne)
          ((List.mem_erase_of_ne hne).mpr hready)
    · have hstep : s.step .advance = { s with phase := .driving race (.batch tasks ranAny) } := by
        simp only [step, advance, hphase, driver, if_neg htask]
        rfl
      have hnext : (s.step .advance).phase = .driving race (.batch tasks ranAny) := by rw [hstep]
      have hfirst : DriverRun s (s.step .advance) := (Machine.RunWhere.refl s).tail_ok _ rfl rfl
      obtain ⟨u, ranAny', hrun, hu, hran, hlog, hfutures, hcompleted, hstop⟩ := ih hnext
      rw [hstep] at hran hlog hfutures hcompleted hstop
      refine ⟨u, ranAny', hfirst.trans hrun, hu, ?_, hlog, hfutures, hcompleted, hstop⟩
      intro id hid hready
      refine hran id ((List.mem_cons.mp hid).resolve_left ?_) hready
      rintro rfl
      exact htask hready

/-- The driver settles what it has in hand. -/
theorem exists_settled (completed : List ℕ)
    (hphase : s.phase = .driving race (.settling completed)) :
    ∃ u, DriverRun s u ∧ (∀ id ∈ completed, .settled id ∈ u.log) ∧ s.log ⊆ u.log := by
  induction completed generalizing s with
  | nil => exact ⟨s, .refl s, fun id hid => absurd hid List.not_mem_nil, fun _ => id⟩
  | cons future completed ih =>
    have hstep : s.step .advance = { s.record (.settled future) with
        phase := .driving race (.settling completed) } := by
      simp only [step, advance, hphase, driver]
      rfl
    have hfirst : DriverRun s (s.step .advance) := (Machine.RunWhere.refl s).tail_ok _ rfl rfl
    obtain ⟨u, hrun, hsettled, hlog⟩ := ih (s := s.step .advance) (by rw [hstep])
    rw [hstep] at hlog
    refine ⟨u, hfirst.trans hrun, fun id hid => ?_, fun _ hr => hlog (List.mem_append_left _ hr)⟩
    rcases List.mem_cons.mp hid with rfl | hid
    · exact hlog (List.mem_append_right _ (List.mem_singleton_self _))
    · exact hsettled id hid

/-- The driver polls its futures. -/
theorem exists_polled {progressed : Bool} (hphase : s.phase = .driving race (.polling progressed)) :
    ∃ u, DriverRun s u ∧ (∀ id ∈ s.futures, id ∈ s.completed → .settled id ∈ u.log) ∧
      s.log ⊆ u.log := by
  by_cases hnone : s.futures.filter (fun id => id ∈ s.completed) = []
  · refine ⟨s, .refl s, fun id hid hcompleted => ?_, fun _ => id⟩
    have hmem : id ∈ s.futures.filter fun id => id ∈ s.completed :=
      List.mem_filter.mpr ⟨hid, decide_eq_true hcompleted⟩
    rw [hnone] at hmem
    cases hmem
  · have hstep : s.step (.polled false) = { s with
        futures := s.futures.filter fun id => id ∉ s.completed
        phase := .driving race (.settling (s.futures.filter fun id => id ∈ s.completed)) } := by
      simp only [step, hphase, polled]
      rw [if_neg fun h => hnone h.1]
    have hnext : (s.step (.polled false)).phase =
        .driving race (.settling (s.futures.filter fun id => id ∈ s.completed)) := by rw [hstep]
    have hfirst : DriverRun s (s.step (.polled false)) :=
      (Machine.RunWhere.refl s).tail_ok _ rfl rfl
    obtain ⟨u, hrun, hsettled, hlog⟩ := exists_settled _ hnext
    rw [hstep] at hlog
    exact ⟨u, hfirst.trans hrun, fun id hid hcompleted =>
      hsettled id (List.mem_filter.mpr ⟨hid, decide_eq_true hcompleted⟩), hlog⟩

/-- **A driver that is started** runs the tasks that are ready, and settles the futures that have
completed. -/
theorem exists_delivered (hphase : s.phase = .outside) (hstop : s.stopRequested = false) :
    ∃ u, DriverRun (s.step .drive) u ∧ (∀ id ∈ s.ready, .ran id ∈ u.log) ∧
      ∀ id ∈ s.futures, id ∈ s.completed → .settled id ∈ u.log := by
  have hstart : ((s.step .drive).step (.resume false)).step .advance =
      { s with phase := .driving none (.batch s.ready false) } := by
    simp [step, SendLoop.resume, advance, hphase, DriverPoint.awaits, resumed, driver, drivenTo]
  have hbegins : DriverRun (s.step .drive)
      { s with phase := .driving none (.batch s.ready false) } :=
    hstart ▸ ((Machine.RunWhere.refl (s.step .drive)).tail_ok (.resume false) rfl rfl).tail_ok
      .advance rfl rfl
  obtain ⟨t, ranAny, hrun, ht, hran, hlog, hfutures, hcompleted, htstop⟩ :=
    exists_batch (s := { s with phase := .driving none (.batch s.ready false) }) s.ready rfl
  have hrun := hbegins.trans hrun
  -- The step is over: the driver awaits, unless nothing is left for it to do.
  have hover : t.step .advance = { (t.stepped ranAny).1 with
      phase := drivenTo none (t.stepped ranAny).2 } := by
    simp only [step, advance, ht, driver]
  have hpolls (point : DriverPoint) (progressed : Bool)
      (hstepped : t.stepped ranAny = (t, some point))
      (hresumed : resumed false point = .polling progressed)
      (hawaits : point.awaits = true) : ∃ u, DriverRun (s.step .drive) u ∧
        (∀ id ∈ s.ready, .ran id ∈ u.log) ∧
        ∀ id ∈ s.futures, id ∈ s.completed → .settled id ∈ u.log := by
    have hresume : (t.step .advance).step (.resume false) =
        { t with phase := .driving none (.polling progressed) } := by
      rw [hover, hstepped]
      simp [step, SendLoop.resume, drivenTo, hawaits, hresumed]
    obtain ⟨u, hpoll, hsettled, hmore⟩ :=
      exists_polled (s := { t with phase := .driving none (.polling progressed) }) rfl
    have hawait : DriverRun t { t with phase := .driving none (.polling progressed) } :=
      hresume ▸ ((Machine.RunWhere.refl t).tail_ok .advance rfl rfl).tail_ok (.resume false) rfl rfl
    exact ⟨u, (hrun.trans hawait).trans hpoll, fun id hid => hmore (hran id hid hid),
      fun id hid hdone => hsettled id (hfutures ▸ hid) (hcompleted ▸ hdone)⟩
  have htstop : ¬ t.stopRequested = true := by simp [htstop, hstop]
  cases ranAny with
  | true => exact hpolls .yielding true (by simp [stepped, htstop]) rfl rfl
  | false =>
    by_cases halive : t.isAlive = true
    · exact hpolls .idle false (by simp [stepped, htstop, halive]) rfl rfl
    · refine ⟨t, hrun, fun id hid => hran id hid hid, fun id hid => ?_⟩
      have hnone : t.futures = [] := by
        by_contra hne
        exact halive (by simp [isAlive, hne])
      rw [← show t.futures = s.futures from hfutures, hnone] at hid
      cases hid

end Driver

/-! ### Runs -/

/-- **Finishing the sends.** In every run in which no send is registered while others are finished,
no stop is requested, and no send is done before it is abandoned: when `finish_pending_sends`
returns, every send that was registered is done; a send is abandoned once, before it is done, and
after a driver found no work left; no work is left when a driver finds so; a task is queued until it
ran or was cancelled; and a future is in flight until it is settled, unless the driver is about to
settle it, which it never is where it awaits and may be dropped. What was left there is delivered:
whichever driver is next at its turn runs every task that is ready and not cancelled meanwhile, one
that polls settles every future that has completed, and a driver that is started gets there. -/
theorem sends_finished (t : SendLoop) (hrun : sendMachine.RunWhere Orderly .initial t) :
    Kept SendAllowed t.log ∧
      (∀ id, .queued id ∈ t.log →
        id ∈ t.waiting ∨ id ∈ t.ready ∨ .ran id ∈ t.log ∨ .cancelled id ∈ t.log) ∧
      (∀ id, .spawned id ∈ t.log → id ∈ t.futures ∨ .settled id ∈ t.log ∨
        ∃ race completed, t.phase = .driving race (.settling completed) ∧ id ∈ completed) ∧
      (∀ race, t.phase = .driving race .turn → ∀ u, sendMachine.Run t u →
        u.phase.stepping = false → ∀ id ∈ t.ready, .ran id ∈ u.log ∨ .cancelled id ∈ u.log) ∧
      (∀ race progressed, t.phase = .driving race (.polling progressed) → ∀ u, sendMachine.Run t u →
        u.phase.settling = false → ∀ id ∈ t.futures, id ∈ t.completed → .settled id ∈ u.log) ∧
      (t.phase = .outside → ∃ u, DriverRun (t.step .drive) u ∧
        (∀ id ∈ t.ready, .ran id ∈ u.log) ∧
        ∀ id ∈ t.futures, id ∈ t.completed → .settled id ∈ u.log) := by
  have ht : t.Finishing := by
    refine hrun.inv finishing_initial fun s ev u hs hok hu => ?_
    obtain rfl : s.step ev = u := Option.some.inj hu
    exact hs.step hok
  refine ⟨ht.kept, ht.work.tasks, fun id hid => ?_,
    fun race hphase u hrun hover id hid => Ran.of_run hphase hrun hover hid,
    fun race progressed hphase u hrun hover id hid hdone =>
      Settled.of_run hphase hrun hover hid hdone,
    fun hphase => exists_delivered hphase ht.stop⟩
  rcases ht.work.futures id hid with hid | hid | hid
  · exact .inl hid
  · refine .inr (.inr ?_)
    cases hphase : t.phase with
    | driving race point =>
      rw [hphase] at hid
      cases point with
      | settling completed => exact ⟨race, completed, rfl, hid⟩
      | _ => cases hid
    | _ =>
      rw [hphase] at hid
      cases hid
  · exact .inr (.inl hid)

instance (s : SendLoop) (ev : SendEvent) : Decidable (Orderly s ev) :=
  match ev with
  | .register => inferInstanceAs (Decidable (s.phase.finishing = false))
  | .requestStop => .isFalse id
  | .advance =>
    match hphase : s.phase with
    | .abandoning ⟨dones, send :: abandons⟩ =>
      decidable_of_iff (send ∉ s.finished) ⟨fun h race send' abandons' heq hcons => by
        cases hphase.symm.trans heq
        cases hcons
        exact h, fun h => h _ _ _ hphase rfl⟩
    | .abandoning ⟨dones, []⟩ => .isTrue fun race send abandons heq hcons => by
        cases hphase.symm.trans heq
        cases hcons
    | .outside | .driving _ _ | .awaiting _ => .isTrue fun race send abandons heq hcons => by
        cases hphase.symm.trans heq
  | .sendDone _ | .queueTask | .taskReady _ | .cancelTask _ | .acquire | .release | .spawn
  | .futureDone _ | .finish | .drive | .drop | .polled _ | .resume _ => .isTrue trivial

/-- A send that a future feeds, and that is abandoned after the future was settled. Where a send is
done first and the driver is dropped, a task is left ready and a future has completed; a driver that
is started then runs the one and settles the other. -/
theorem sends_finished_abandoned : (∃ t, sendMachine.RunWhere Orderly .initial t ∧
    .abandoned 0 ∈ t.log ∧ .returned ∈ t.log ∧ Kept SendAllowed t.log) ∧
    ∃ t, sendMachine.RunWhere Orderly .initial t ∧
      t.log = [.registered 0, .queued 1, .spawned 2, .finished 0, .returned] ∧
      ∃ u, DriverRun (t.step .drive) u ∧ .ran 1 ∈ u.log ∧ .settled 2 ∈ u.log := by
  constructor
  · have hexec : ((sendMachine.exec .initial [.register, .spawn, .finish, .resume false, .advance,
        .advance, .futureDone 1, .resume false, .polled false, .advance, .advance, .advance,
        .advance, .advance, .advance, .sendDone 0, .resume false]).any fun t =>
          decide (.abandoned 0 ∈ t.log ∧ .returned ∈ t.log)) = true := by decide
    obtain ⟨t, ht, hP⟩ := (Option.any_eq_true _ _).mp hexec
    obtain ⟨habandoned, hreturned⟩ := of_decide_eq_true hP
    have hrun : sendMachine.RunWhere Orderly .initial t :=
      Machine.runWhere_of_exec (by decide) ht
    exact ⟨t, hrun, habandoned, hreturned, (sends_finished t hrun).1⟩
  · have hexec : ((sendMachine.exec .initial [.register, .queueTask, .spawn, .finish, .resume false,
        .advance, .advance, .taskReady 1, .futureDone 2, .sendDone 0, .resume false]).any fun t =>
          decide (t.log = [.registered 0, .queued 1, .spawned 2, .finished 0, .returned] ∧
            t.phase = .outside ∧ 1 ∈ t.ready ∧ 2 ∈ t.futures ∧ 2 ∈ t.completed)) = true := by
      decide
    obtain ⟨t, ht, hP⟩ := (Option.any_eq_true _ _).mp hexec
    obtain ⟨hlog, hphase, hready, hfuture, hdone⟩ := of_decide_eq_true hP
    have hrun : sendMachine.RunWhere Orderly .initial t :=
      Machine.runWhere_of_exec (by decide) ht
    obtain ⟨u, hu, hran, hsettled⟩ := (sends_finished t hrun).2.2.2.2.2 hphase
    exact ⟨t, hrun, hlog, u, hu, hran 1 hready, hsettled 2 hfuture hdone⟩

/-- What happened in a run in which a task registers a send while others are finished. -/
def lateSend : List SendRecord :=
  [.registered 0, .queued 1, .ran 1, .registered 2, .finished 0]

/-- A task registers a send while others are finished: it is not awaited. -/
theorem late_send_unfinished : ¬ ∀ t, sendMachine.Run .initial t → Kept SendAllowed t.log := by
  intro h
  obtain ⟨t, hrun, hP⟩ := Machine.exists_run_of_exec (M := sendMachine) (s := .initial)
    [.register, .queueTask, .taskReady 1, .finish, .resume false, .advance, .advance, .register,
      .advance, .sendDone 0, .resume false]
    (P := fun t => t.log = lateSend ++ [.returned]) (by decide)
  have hfinished := h t hrun lateSend .returned [] (of_decide_eq_true hP) 2 (by decide)
  exact absurd hfinished (by decide)

end SendLoop

end CoreRuntime
