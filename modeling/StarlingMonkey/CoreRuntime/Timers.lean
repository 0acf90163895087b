import StarlingMonkey.CoreRuntime.Dispatch

/-!
# The timers of a loop

Scripts know a timer by an id, the loop by the id of its task, and `jsTimers` is the map between
the two. It is updated at other moments than the queue: a timer that runs is not queued, but its
id stays in the map until its handler has returned, and an id that is cleared meanwhile is what
keeps an interval from being queued again.

`Timers` is the agreement of the map with the queue, with the timer that runs and with the record.
`timers_agree` reads it off in every state that scripts can reach.

* `Live`: the timer tasks there are, queued or running.
* `Retired`: the ids that were cleared after they had been issued.
* `Scripted`: the events of a loop whose timers are used by scripts alone.
-/

namespace CoreRuntime

variable {κ ω : Type}

/-! ### What the record says of timers -/

/-- The timer id was cleared after it had been issued. -/
def Retired (log : List (Record κ ω)) (k : ℕ) : Prop :=
  ∃ pre post id, log = pre ++ .cleared k :: post ∧ .issued k id ∈ pre

/-- After an issued timer id was cleared, no handler of that timer is started. -/
def StaysCleared (log : List (Record κ ω)) : Prop :=
  ∀ pre post k id, log = pre ++ .cleared k :: post → .issued k id ∈ pre →
    ∀ i task d now, .started i (.timer task) d now ∈ post → task.timerId ≠ k

/-- The task of a timeout whose handler a record says was started. -/
def Record.oneShot : Record κ ω → Option TaskId
  | .started id (.timer task) _ _ => if task.interval = none then some id else none
  | _ => none

/-- The timeouts whose handlers were started, in order. -/
def oneShots (log : List (Record κ ω)) : List TaskId := log.filterMap Record.oneShot

/-- A record that does not concern timers. -/
def Record.Aside : Record κ ω → Prop
  | .allocated _ (.other _) | .started _ (.other _) _ _ | .cancelled _ => True
  | _ => False

variable {log new : List (Record κ ω)} {k : ℕ}

theorem Retired.append (h : Retired log k) : Retired (log ++ new) k := by
  obtain ⟨pre, post, id, rfl, hmem⟩ := h
  exact ⟨pre, post ++ new, id, by rw [List.append_assoc, List.cons_append], hmem⟩

theorem retired_cleared {id : TaskId} (h : .issued k id ∈ log) :
    Retired (log ++ .cleared k :: new) k := ⟨log, new, id, rfl, h⟩

/-- An id is retired by a record that clears it. -/
theorem Retired.of_append (h : Retired (log ++ new) k) : Retired log k ∨ .cleared k ∈ new := by
  obtain ⟨pre, post, id, heq, hmem⟩ := h
  rcases List.append_eq_append_iff.mp heq with ⟨l, rfl, rfl⟩ | ⟨l, rfl, hl⟩
  · exact .inr (List.mem_append_right _ (List.mem_cons_self ..))
  · cases l with
    | nil => exact .inr (by rw [List.nil_append] at hl; rw [← hl]; exact List.mem_cons_self ..)
    | cons r l =>
      obtain ⟨rfl, -⟩ := List.cons.inj hl
      exact .inl ⟨pre, l, id, rfl, hmem⟩

theorem Retired.issued (h : Retired log k) : ∃ id, .issued k id ∈ log := by
  obtain ⟨pre, post, id, rfl, hmem⟩ := h
  exact ⟨id, List.mem_append_left _ hmem⟩

theorem StaysCleared.concat {r : Record κ ω} (h : StaysCleared log)
    (hr : ∀ i task d now, r = .started i (.timer task) d now → ¬ Retired log task.timerId) :
    StaysCleared (log ++ [r]) := by
  intro pre post k id heq hmem i task d now hstart hk
  rcases List.eq_nil_or_concat post with rfl | ⟨post, r', rfl⟩
  · cases hstart
  · rw [List.concat_eq_append, ← List.cons_append, ← List.append_assoc] at heq
    obtain ⟨hlog, hlast⟩ := List.append_inj' heq rfl
    cases hlast
    rw [List.concat_eq_append] at hstart
    rcases List.mem_append.mp hstart with hstart | hstart
    · exact h pre post k id hlog hmem i task d now hstart hk
    · refine hr i task d now (List.mem_singleton.mp hstart).symm ?_
      rw [hk]
      exact ⟨pre, post, id, hlog, hmem⟩

theorem StaysCleared.append (h : StaysCleared log)
    (hnew : ∀ i task d now, .started i (.timer task) d now ∉ new) : StaysCleared (log ++ new) := by
  induction new generalizing log with
  | nil => rwa [List.append_nil]
  | cons r new ih =>
    rw [List.append_cons]
    refine ih (h.concat ?_) fun i task d now hmem => hnew i task d now (List.mem_cons_of_mem _ hmem)
    rintro i task d now rfl
    exact absurd (List.mem_cons_self ..) (hnew i task d now)

theorem mem_oneShots {id : TaskId} : id ∈ oneShots log ↔
    ∃ task d now, .started id (.timer task) d now ∈ log ∧ task.interval = none := by
  rw [oneShots, List.mem_filterMap]
  constructor
  · rintro ⟨r, hr, hid⟩
    cases r with
    | started i task d now =>
      cases task with
      | timer task =>
        rw [Record.oneShot] at hid
        split_ifs at hid with hnone
        obtain rfl := Option.some.inj hid
        exact ⟨task, d, now, hr, hnone⟩
      | other task => cases hid
    | _ => cases hid
  · rintro ⟨task, d, now, hr, hnone⟩
    exact ⟨_, hr, if_pos hnone⟩

theorem oneShots_append (log new : List (Record κ ω)) :
    oneShots (log ++ new) = oneShots log ++ oneShots new := List.filterMap_append

theorem oneShots_eq_nil (h : ∀ i task d now, .started i (.timer task) d now ∉ new) :
    oneShots new = [] := by
  refine List.eq_nil_iff_forall_not_mem.mpr fun id hid => ?_
  obtain ⟨task, d, now, hmem, -⟩ := mem_oneShots.mp hid
  exact h id task d now hmem

namespace Frame

/-- The tasks a call has still to turn to. -/
def todo : Frame κ ω → List TaskId
  | .batch todo _ => todo
  | _ => []

end Frame

namespace System

variable {s t : System κ ω} {id : TaskId} {task : TimerTask κ}

/-- The timer task is queued, with this entry. -/
def Waits (s : System κ ω) (id : TaskId) (task : TimerTask κ) (e : TaskEntry (Task κ ω)) : Prop :=
  s.entry id = some e ∧ e.task = .timer task

/-- The timer tasks there are: queued or running. -/
def Live (s : System κ ω) (id : TaskId) (task : TimerTask κ) : Prop :=
  (∃ e, s.Waits id task e) ∨ (id, task) ∈ s.running

/-- The tasks that steps have still to turn to. -/
def todo (s : System κ ω) : List TaskId := s.stack.flatMap Frame.todo

/-- The map of timer ids agrees with the queue, with the timer that runs and with the record. -/
structure Timers (s : System κ ω) : Prop where
  wellFormed : s.WellFormed
  /-- The id of a queued timer is mapped to its task. -/
  mapped : ∀ {id task e}, s.Waits id task e → s.loop.jsTimers.lookup task.timerId = some id
  /-- An id is mapped to a timer that is queued or runs. -/
  keys : ∀ {k id}, s.loop.jsTimers.lookup k = some id → ∃ task, s.Live id task ∧ task.timerId = k
  /-- The id of a timer was issued for its task. -/
  issued : ∀ {id task}, s.Live id task → .issued task.timerId id ∈ s.log
  /-- An id that was issued is not zero and below the counter, and its task was queued for it. -/
  known : ∀ {k id}, .issued k id ∈ s.log → k ≠ 0 ∧ k < s.counter ∧
    ∃ task, .allocated id (.timer task) ∈ s.log ∧ task.timerId = k
  /-- An id is issued once. -/
  unique : ∀ {k id id'}, .issued k id ∈ s.log → .issued k id' ∈ s.log → id = id'
  retired : ∀ {k}, Retired s.log k → s.loop.jsTimers.lookup k = none
  staysCleared : StaysCleared s.log
  /-- A timeout that has run is not queued, and its id is released when its handler returns. -/
  oneShot : ∀ {id task d now}, .started id (.timer task) d now ∈ s.log → task.interval = none →
    id < s.loop.nextId ∧ (∀ task' e, ¬ s.Waits id task' e) ∧
      ((id, task) ∈ s.running ∨ s.loop.jsTimers.lookup task.timerId = none)
  oneShots : (oneShots s.log).Nodup
  /-- The id of an interval stays until it is cleared. -/
  kept : ∀ {k id task}, .issued k id ∈ s.log → .allocated id (.timer task) ∈ s.log →
    task.interval ≠ none → ¬ Retired s.log k → s.loop.jsTimers.lookup k = some id
  /-- A queued timer has a deadline, and is ready only when that has come. -/
  due : ∀ {id task e}, s.Waits id task e → ∃ d, e.deadline = some d ∧ (e.ready = true → d ≤ s.now)
  /-- A handler was started for a timer with an id, at its deadline or later. -/
  started : ∀ {id task d now}, .started id (.timer task) d now ∈ s.log →
    .issued task.timerId id ∈ s.log ∧ ∃ x, d = some x ∧ x ≤ now
  /-- A timer that a step has still to turn to is ready, unless it was cleared. -/
  ready : ∀ id ∈ s.todo, id < s.loop.nextId ∧ id ∉ s.running.map Prod.fst ∧
    ∀ task e, s.Waits id task e → e.ready = true
  todo : s.todo.Nodup
  /-- Timers run on top. -/
  top : ∀ f ∈ s.stack.tail, f.running = none

theorem timers_initial (now : Instant) (counter : ℕ) :
    (initial now counter : System κ ω).Timers where
  wellFormed := wellFormed_initial now counter
  mapped := fun h => by cases h.1
  keys := fun h => by cases h
  issued := by
    rintro id task (⟨e, h, -⟩ | h)
    · cases h
    · cases h
  known := by intros; contradiction
  unique := by intros; contradiction
  retired := by
    rintro k hk
    obtain ⟨id, hid⟩ := hk.issued
    cases hid
  staysCleared := by
    rintro pre post k id heq
    cases pre <;> cases heq
  oneShot := by intros; contradiction
  oneShots := List.nodup_nil
  kept := by intros; contradiction
  due := fun h => by cases h.1
  started := by intros; contradiction
  ready := by intros; contradiction
  todo := List.nodup_nil
  top := by intros; contradiction

/-- A timer task that is queued or runs has its interval, and its id, from when it was queued
first. -/
theorem WellFormed.same_timer (h : s.WellFormed) {first : TimerTask κ}
    (halloc : .allocated id (.timer first) ∈ s.log) (hlive : s.Live id task) :
    first.interval = task.interval ∧ first.timerId = task.timerId := by
  have hstands : s.Stands id (.timer task) := by
    rcases hlive with ⟨e, he, htask⟩ | hrun
    · rw [← htask]
      exact h.stands he
    · exact h.standsRunning _ hrun
  obtain ⟨first', hmem, heq⟩ := hstands
  have hmem' : (id, Task.timer first) ∈ s.allocations := List.mem_filterMap.mpr ⟨_, halloc, rfl⟩
  have hnodup : (s.allocations.map Prod.fst).Nodup := by
    rw [h.ids]
    exact List.nodup_range
  obtain rfl : Task.timer first = first' :=
    congrArg Prod.snd (List.inj_on_of_nodup_map hnodup hmem' hmem rfl)
  obtain ⟨-, hinterval, -, hid⟩ := TimerTask.mk.inj (Task.timer.inj heq)
  exact ⟨hinterval, hid⟩

/-- A change that leaves the timers and their ids alone. -/
theorem Timers.carry (h : s.Timers) (ht : t.WellFormed) {new : List (Record κ ω)}
    (hlog : t.log = s.log ++ new) (hnew : ∀ r ∈ new, r.Aside)
    (hfwd : ∀ {id task e'}, t.Waits id task e' → ∃ e, s.Waits id task e ∧
      e'.deadline = e.deadline ∧ (e.ready = true → e'.ready = true) ∧
      (e'.ready = true → e.ready = true ∨ ∀ d ∈ e.deadline, d ≤ t.now))
    (hback : ∀ {id task e}, s.Waits id task e → ∃ e', t.Waits id task e')
    (hrunning : t.running = s.running)
    (htimers : t.loop.jsTimers = s.loop.jsTimers)
    (hcounter : s.counter ≤ t.counter)
    (hnow : s.now ≤ t.now)
    (hids : s.loop.nextId ≤ t.loop.nextId)
    (htodo : t.todo.Sublist s.todo)
    (htop : ∀ f ∈ t.stack.tail, f.running = none) : t.Timers where
  wellFormed := ht
  mapped := by
    rintro id task e hw
    obtain ⟨e, hw, -⟩ := hfwd hw
    rw [htimers]
    exact h.mapped hw
  keys := by
    rintro k id hk
    rw [htimers] at hk
    obtain ⟨task, hlive, htask⟩ := h.keys hk
    refine ⟨task, ?_, htask⟩
    rcases hlive with ⟨e, hw⟩ | hrun
    · exact .inl (hback hw)
    · exact .inr (hrunning ▸ hrun)
  issued := by
    rintro id task hlive
    rw [hlog]
    refine List.mem_append_left _ (h.issued ?_)
    rcases hlive with ⟨e, hw⟩ | hrun
    · obtain ⟨e, hw, -⟩ := hfwd hw
      exact .inl ⟨e, hw⟩
    · exact .inr (hrunning ▸ hrun)
  -- the new records do not concern timers, so every record that does is an old one
  known := by
    rintro k id hk
    rw [hlog] at hk ⊢
    rcases List.mem_append.mp hk with hk | hk
    · obtain ⟨hne, hlt, task, hmem, htask⟩ := h.known hk
      exact ⟨hne, hlt.trans_le hcounter, task, List.mem_append_left _ hmem, htask⟩
    · exact (hnew _ hk).elim
  unique := by
    rintro k id id' hk hk'
    rw [hlog] at hk hk'
    rcases List.mem_append.mp hk with hk | hk
    · rcases List.mem_append.mp hk' with hk' | hk'
      · exact h.unique hk hk'
      · exact (hnew _ hk').elim
    · exact (hnew _ hk).elim
  retired := by
    rintro k hk
    rw [hlog] at hk
    rw [htimers]
    rcases hk.of_append with hk | hk
    · exact h.retired hk
    · exact (hnew _ hk).elim
  staysCleared := by
    rw [hlog]
    exact h.staysCleared.append fun i task d now hmem => hnew _ hmem
  oneShot := by
    rintro id task d now hmem hnone
    rw [hlog] at hmem
    rcases List.mem_append.mp hmem with hmem | hmem
    · obtain ⟨hlt, hwaits, hreleased⟩ := h.oneShot hmem hnone
      rw [hrunning, htimers]
      refine ⟨hlt.trans_le hids, fun task' e hw => ?_, hreleased⟩
      obtain ⟨e, hw, -⟩ := hfwd hw
      exact hwaits task' e hw
    · exact (hnew _ hmem).elim
  oneShots := by
    rw [hlog, oneShots_append, oneShots_eq_nil fun i task d now hmem => hnew _ hmem,
      List.append_nil]
    exact h.oneShots
  kept := by
    rintro k id task hk halloc hne hretired
    rw [hlog] at hk halloc hretired
    rw [htimers]
    rcases List.mem_append.mp hk with hk | hk
    · rcases List.mem_append.mp halloc with halloc | halloc
      · exact h.kept hk halloc hne fun hold => hretired hold.append
      · exact (hnew _ halloc).elim
    · exact (hnew _ hk).elim
  due := by
    rintro id task e' hw
    obtain ⟨e, hw, hdeadline, -, hready⟩ := hfwd hw
    obtain ⟨d, hd, hdue⟩ := h.due hw
    refine ⟨d, hdeadline.trans hd, fun hr => ?_⟩
    rcases hready hr with hr | hcome
    · exact (hdue hr).trans hnow
    · exact hcome d hd
  started := by
    rintro id task d now hmem
    rw [hlog] at hmem
    rcases List.mem_append.mp hmem with hmem | hmem
    · obtain ⟨hissued, hdue⟩ := h.started hmem
      rw [hlog]
      exact ⟨List.mem_append_left _ hissued, hdue⟩
    · exact (hnew _ hmem).elim
  ready := by
    rintro id hid
    obtain ⟨hlt, hnot, hready⟩ := h.ready id (htodo.subset hid)
    rw [hrunning]
    refine ⟨hlt.trans_le hids, hnot, fun task e' hw => ?_⟩
    obtain ⟨e, hw, -, hr, -⟩ := hfwd hw
    exact hr (hready task e hw)
  todo := h.todo.sublist htodo
  top := htop

/-- A change that leaves the queue alone. -/
theorem Timers.idle (h : s.Timers) (ht : t.WellFormed)
    (htasks : t.loop.tasks = s.loop.tasks) (hlog : t.log = s.log)
    (hrunning : t.running = s.running)
    (htimers : t.loop.jsTimers = s.loop.jsTimers)
    (hcounter : s.counter ≤ t.counter)
    (hnow : s.now ≤ t.now)
    (hids : s.loop.nextId ≤ t.loop.nextId)
    (htodo : t.todo.Sublist s.todo)
    (htop : ∀ f ∈ t.stack.tail, f.running = none) : t.Timers := by
  refine h.carry ht (show t.log = s.log ++ [] by rw [hlog, List.append_nil])
    (by intros; contradiction) ?_ ?_ hrunning htimers hcounter hnow hids htodo htop
  · rintro id task e ⟨he, htask⟩
    rw [entry, htasks] at he
    exact ⟨e, ⟨he, htask⟩, rfl, fun hr => hr, .inl⟩
  · rintro id task e ⟨he, htask⟩
    refine ⟨e, ?_, htask⟩
    rwa [entry, htasks]

/-- A task of another kind is queued. -/
theorem Timers.insertOther (h : s.Timers) (ht : t.WellFormed) {task : ω} {ready : Bool}
    {deadline : Option Instant}
    (htasks : t.loop.tasks = s.loop.tasks.insert ⟨s.loop.nextId, .other task, ready, deadline⟩)
    (hlog : t.log = s.log ++ [.allocated s.loop.nextId (.other task)])
    (hids : t.loop.nextId = s.loop.nextId + 1)
    (htimers : t.loop.jsTimers = s.loop.jsTimers)
    (hstack : t.stack = s.stack) (hcounter : t.counter = s.counter)
    (hnow : t.now = s.now) : t.Timers := by
  have hlook (id : TaskId) : t.entry id = if id = s.loop.nextId then
      some ⟨s.loop.nextId, .other task, ready, deadline⟩ else s.entry id := by
    rw [entry, htasks, TaskQueue.lookup_insert]
  refine h.carry ht hlog ?_ ?_ ?_ (by rw [running, hstack, running]) htimers hcounter.ge hnow.ge
    (by rw [hids]; exact Nat.le_succ _) (by rw [System.todo, hstack]; exact List.Sublist.refl _) ?_
  · rintro r hr
    rw [List.mem_singleton.mp hr]
    trivial
  · rintro id task' e ⟨he, htask⟩
    rw [hlook] at he
    split_ifs at he
    · rw [← Option.some.inj he] at htask
      cases htask
    · exact ⟨e, ⟨he, htask⟩, rfl, fun hr => hr, .inl⟩
  · rintro id task' e ⟨he, htask⟩
    have hne : id ≠ s.loop.nextId := (h.wellFormed.lt_of_stands (h.wellFormed.stands he)).ne
    exact ⟨e, by rw [hlook, if_neg hne]; exact he, htask⟩
  · rw [hstack]
    exact h.top

/-- A task that is not a timer is cancelled. -/
theorem Timers.cancelOther (h : s.Timers) (hid : ∀ task e, ¬ s.Waits id task e) :
    (s.cancel id).Timers := by
  have ht := h.wellFormed.cancel id
  simp only [System.cancel, EventLoop.cancelIfQueued] at ht ⊢
  cases hr : s.loop.tasks.remove id with
  | none =>
    rw [hr] at ht
    exact h.idle ht rfl rfl rfl rfl le_rfl le_rfl le_rfl (List.Sublist.refl _) h.top
  | some p =>
    obtain ⟨e, q⟩ := p
    rw [hr] at ht
    have hlook := TaskQueue.lookup_remove hr
    refine h.carry ht rfl ?_ ?_ ?_ rfl rfl le_rfl le_rfl le_rfl (List.Sublist.refl _) h.top
    · rintro r hr
      rw [List.mem_singleton.mp hr]
      trivial
    · rintro i task e' ⟨he, htask⟩
      replace he := (hlook i).symm.trans he
      split_ifs at he
      exact ⟨e', ⟨he, htask⟩, rfl, fun hr => hr, .inl⟩
    · rintro i task e' ⟨he, htask⟩
      refine ⟨e', (hlook i).trans ((if_neg ?_).trans he), htask⟩
      rintro rfl
      exact hid task e' ⟨he, htask⟩

/-- Timers whose deadline has come are marked ready. -/
theorem Timers.relabel (h : s.Timers) (ht : t.WellFormed)
    {f : TaskId → TaskEntry (Task κ ω) → Bool}
    (hlook : ∀ id, t.entry id = (s.entry id).map fun e => { e with ready := e.ready || f id e })
    (hf : ∀ id task e, s.Waits id task e → f id e = true → ∀ d ∈ e.deadline, d ≤ t.now)
    (hlog : t.log = s.log) (hrunning : t.running = s.running)
    (htimers : t.loop.jsTimers = s.loop.jsTimers)
    (hcounter : s.counter ≤ t.counter)
    (hnow : s.now ≤ t.now)
    (hids : s.loop.nextId ≤ t.loop.nextId)
    (htodo : t.todo.Sublist s.todo)
    (htop : ∀ f ∈ t.stack.tail, f.running = none) : t.Timers := by
  refine h.carry ht (show t.log = s.log ++ [] by rw [hlog, List.append_nil])
    (by intros; contradiction) ?_ ?_ hrunning htimers hcounter hnow hids htodo htop
  · rintro id task e' ⟨he', htask⟩
    rw [hlook] at he'
    obtain ⟨e, he, rfl⟩ := Option.map_eq_some_iff.mp he'
    refine ⟨e, ⟨he, htask⟩, rfl, fun hr => (Bool.or_eq_true ..).mpr (.inl hr), fun hr => ?_⟩
    rcases (Bool.or_eq_true ..).mp hr with hr | hr
    exacts [.inl hr, .inr (hf id task e ⟨he, htask⟩ hr)]
  · rintro id task e ⟨he, htask⟩
    exact ⟨_, (hlook id).trans (congrArg _ he), htask⟩

/-! ### The timer operations -/

/-- A timer is queued under a new id. -/
theorem Timers.insertTimer (h : s.Timers) (ht : t.WellFormed) {k : ℕ} {deadline : Instant}
    (hk : s.counter ≤ k) (hzero : k ≠ 0) (htask : task.timerId = k)
    (htasks : t.loop.tasks =
      s.loop.tasks.insert ⟨s.loop.nextId, .timer task, false, some deadline⟩)
    (htimers : t.loop.jsTimers = s.loop.jsTimers.insert k s.loop.nextId)
    (hlog : t.log = s.log ++
      [.allocated s.loop.nextId (.timer task), .issued k s.loop.nextId])
    (hids : t.loop.nextId = s.loop.nextId + 1) (hcounter : t.counter = k + 1)
    (hstack : t.stack = s.stack) (hnow : t.now = s.now) : t.Timers := by
  -- the ids are new: no record and no entry is about them
  have hfresh (id : TaskId) : .issued k id ∉ s.log := fun hmem =>
    absurd (h.known hmem).2.1 (not_lt.mpr hk)
  have hne {i : TaskId} {e : TaskEntry (Task κ ω)} (he : s.entry i = some e) :
      i ≠ s.loop.nextId := (h.wellFormed.lt_of_stands (h.wellFormed.stands he)).ne
  -- the queue gains the timer, and keeps the others
  have hlook (i : TaskId) : t.entry i = if i = s.loop.nextId then
      some ⟨s.loop.nextId, .timer task, false, some deadline⟩ else s.entry i := by
    rw [entry, htasks, TaskQueue.lookup_insert]
  have hwaits {i : TaskId} {task' : TimerTask κ} {e : TaskEntry (Task κ ω)}
      (hw : t.Waits i task' e) : s.Waits i task' e ∨
        i = s.loop.nextId ∧ task' = task ∧ e.deadline = some deadline ∧ e.ready = false := by
    obtain ⟨he, htask'⟩ := hw
    rw [hlook] at he
    split_ifs at he with hi
    · rw [← Option.some.inj he] at htask' ⊢
      exact .inr ⟨hi, (Task.timer.inj htask').symm, rfl, rfl⟩
    · exact .inl ⟨he, htask'⟩
  have hlive {i : TaskId} {task' : TimerTask κ} (hl : s.Live i task') : t.Live i task' := by
    rcases hl with ⟨e, he, htask'⟩ | hrun
    · exact .inl ⟨e, by rw [hlook, if_neg (hne he)]; exact he, htask'⟩
    · exact .inr (by rw [running, hstack]; exact hrun)
  -- so do the record and the map
  have hissued {k' : ℕ} {i : TaskId} (hmem : .issued k' i ∈ t.log) :
      .issued k' i ∈ s.log ∨ k' = k ∧ i = s.loop.nextId := by
    rw [hlog] at hmem
    rcases List.mem_append.mp hmem with hmem | hmem
    · exact .inl hmem
    · exact .inr (by simpa using hmem)
  have hlookup {k' : ℕ} (hk' : k' ≠ k) : t.loop.jsTimers.lookup k' = s.loop.jsTimers.lookup k' := by
    rw [htimers, AList.lookup_insert_ne hk']
  have hlookup_self : t.loop.jsTimers.lookup k = some s.loop.nextId := by
    rw [htimers, AList.lookup_insert]
  have hold {k' : ℕ} {i : TaskId} (hmem : .issued k' i ∈ s.log) : k' ≠ k := by
    rintro rfl
    exact hfresh i hmem
  have hstarted {i : TaskId} {task' : TimerTask κ} {d : Option Instant} {now : Instant}
      (hmem : .started i (.timer task') d now ∈ t.log) :
      .started i (.timer task') d now ∈ s.log := by
    rw [hlog] at hmem
    simpa using hmem
  have hnone (i : TaskId) (task' : TimerTask κ) (d : Option Instant) (now : Instant) :
      (.started i (.timer task') d now : Record κ ω) ∉
        [.allocated s.loop.nextId (.timer task), .issued k s.loop.nextId] := by simp
  exact {
    wellFormed := ht
    mapped := by
      rintro i task' e hw
      rcases hwaits hw with hw | ⟨rfl, rfl, -⟩
      · rw [hlookup (hold (h.issued (.inl ⟨e, hw⟩)))]
        exact h.mapped hw
      · rw [htask, hlookup_self]
    keys := by
      rintro k' i hlook'
      by_cases hk' : k' = k
      · subst hk'
        rw [hlookup_self] at hlook'
        obtain rfl := Option.some.inj hlook'
        exact ⟨task, .inl ⟨_, by rw [hlook, if_pos rfl], rfl⟩, htask⟩
      · rw [hlookup hk'] at hlook'
        obtain ⟨task', hl, htask'⟩ := h.keys hlook'
        exact ⟨task', hlive hl, htask'⟩
    issued := by
      rintro i task' hl
      rw [hlog]
      rcases hl with ⟨e, hw⟩ | hrun
      · rcases hwaits hw with hw | ⟨rfl, rfl, -⟩
        · exact List.mem_append_left _ (h.issued (.inl ⟨e, hw⟩))
        · simp [htask]
      · rw [running, hstack] at hrun
        exact List.mem_append_left _ (h.issued (.inr hrun))
    known := by
      rintro k' i hmem
      rw [hcounter, hlog]
      rcases hissued hmem with hmem | ⟨rfl, rfl⟩
      · obtain ⟨hzero', hlt, task', halloc, htask'⟩ := h.known hmem
        exact ⟨hzero', by omega, task', List.mem_append_left _ halloc, htask'⟩
      · exact ⟨hzero, Nat.lt_succ_self _, task, by simp, htask⟩
    unique := by
      rintro k' i i' hmem hmem'
      rcases hissued hmem with hmem | ⟨rfl, rfl⟩
      · rcases hissued hmem' with hmem' | ⟨rfl, rfl⟩
        · exact h.unique hmem hmem'
        · exact absurd hmem (hfresh i)
      · rcases hissued hmem' with hmem' | ⟨-, rfl⟩
        · exact absurd hmem' (hfresh i')
        · rfl
    retired := by
      rintro k' hretired
      rw [hlog] at hretired
      rcases hretired.of_append with hretired | hmem
      · obtain ⟨i, hmem⟩ := hretired.issued
        rw [hlookup (hold hmem)]
        exact h.retired hretired
      · simp at hmem
    staysCleared := by
      rw [hlog]
      exact h.staysCleared.append hnone
    oneShot := by
      rintro i task' d now hmem hshot
      obtain ⟨hlt, hnot, hreleased⟩ := h.oneShot (hstarted hmem) hshot
      refine ⟨hids ▸ Nat.lt_succ_of_lt hlt, fun task'' e hw => ?_, ?_⟩
      · rcases hwaits hw with hw | ⟨rfl, -⟩
        · exact hnot task'' e hw
        · exact lt_irrefl _ hlt
      · rw [running, hstack]
        rcases hreleased with hrun | hreleased
        · exact .inl hrun
        · rw [hlookup (hold (h.started (hstarted hmem)).1)]
          exact .inr hreleased
    oneShots := by
      rw [hlog, oneShots_append, oneShots_eq_nil hnone, List.append_nil]
      exact h.oneShots
    kept := by
      rintro k' i task' hmem halloc hrepeat hretired
      rw [hlog] at halloc hretired
      rcases hissued hmem with hmem | ⟨rfl, rfl⟩
      · rw [hlookup (hold hmem)]
        refine h.kept hmem ?_ hrepeat fun hold' => hretired hold'.append
        rcases List.mem_append.mp halloc with halloc | halloc
        · exact halloc
        · -- the task of an id that was issued before is an older one
          obtain ⟨-, -, task'', halloc', -⟩ := h.known hmem
          have hlt : i < s.loop.nextId := by
            have hmem : i ∈ s.allocations.map Prod.fst :=
              List.mem_map.mpr ⟨_, List.mem_filterMap.mpr ⟨_, halloc', rfl⟩, rfl⟩
            rw [h.wellFormed.ids] at hmem
            exact List.mem_range.mp hmem
          have hi : i = s.loop.nextId := by simp at halloc; exact halloc.1
          exact absurd hi hlt.ne
      · exact hlookup_self
    due := by
      rintro i task' e hw
      rw [hnow]
      rcases hwaits hw with hw | ⟨-, -, hdeadline, hready⟩
      · exact h.due hw
      · refine ⟨deadline, hdeadline, fun hr => ?_⟩
        rw [hready] at hr
        cases hr
    started := by
      rintro i task' d now hmem
      obtain ⟨hissued', hdue⟩ := h.started (hstarted hmem)
      rw [hlog]
      exact ⟨List.mem_append_left _ hissued', hdue⟩
    ready := by
      rintro i hi
      rw [System.todo, hstack] at hi
      rw [running, hstack]
      obtain ⟨hlt, hnot, hready⟩ := h.ready i hi
      refine ⟨hids ▸ Nat.lt_succ_of_lt hlt, hnot, fun task' e hw => ?_⟩
      rcases hwaits hw with hw | ⟨rfl, -⟩
      · exact hready task' e hw
      · exact absurd hlt (lt_irrefl _)
    todo := by
      rw [System.todo, hstack]
      exact h.todo
    top := by
      rw [hstack]
      exact h.top }

/-- A timer id leaves the map, and the timer it stands for is not queued any more. -/
theorem Timers.release (h : s.Timers) (ht : t.WellFormed) (k : ℕ) {new : List (Record κ ω)}
    (hlog : t.log = s.log ++ new) (hnew : ∀ r ∈ new, r.Aside ∨ r = .cleared k)
    (hwaits : ∀ {id task e}, t.Waits id task e ↔ s.Waits id task e ∧ task.timerId ≠ k)
    (hlookup : ∀ k', t.loop.jsTimers.lookup k' = if k' = k then none else s.loop.jsTimers.lookup k')
    (hrunning : t.running.Sublist s.running)
    (hback : ∀ p ∈ s.running, p.2.timerId ≠ k → p ∈ t.running)
    (hretired : ∀ {id task}, .issued k id ∈ s.log → .allocated id (.timer task) ∈ s.log →
      task.interval ≠ none → Retired t.log k)
    (htop : ∀ f ∈ t.stack.tail, f.running = none)
    (hcounter : t.counter = s.counter) (hnow : t.now = s.now)
    (hids : t.loop.nextId = s.loop.nextId)
    (htodo : t.todo = s.todo) : t.Timers := by
  -- the timers that are left are old ones
  have hlive {i : TaskId} {task' : TimerTask κ} (hl : t.Live i task') : s.Live i task' := by
    rcases hl with ⟨e, hw⟩ | hrun
    · exact .inl ⟨e, (hwaits.mp hw).1⟩
    · exact .inr (hrunning.subset hrun)
  -- a new record clears the id at most, so what was issued, queued and started is old
  have hissued {k' : ℕ} {i : TaskId} (hmem : .issued k' i ∈ t.log) : .issued k' i ∈ s.log := by
    rw [hlog] at hmem
    rcases List.mem_append.mp hmem with hmem | hmem
    · exact hmem
    · rcases hnew _ hmem with hr | hr
      · exact hr.elim
      · cases hr
  have halloc {i : TaskId} {task' : TimerTask κ} (hmem : .allocated i (.timer task') ∈ t.log) :
      .allocated i (.timer task') ∈ s.log := by
    rw [hlog] at hmem
    rcases List.mem_append.mp hmem with hmem | hmem
    · exact hmem
    · rcases hnew _ hmem with hr | hr
      · exact hr.elim
      · cases hr
  have hnone (i : TaskId) (task' : TimerTask κ) (d : Option Instant) (now : Instant) :
      .started i (.timer task') d now ∉ new := by
    intro hmem
    rcases hnew _ hmem with hr | hr
    · exact hr.elim
    · cases hr
  have hstarted {i : TaskId} {task' : TimerTask κ} {d : Option Instant} {now : Instant}
      (hmem : .started i (.timer task') d now ∈ t.log) :
      .started i (.timer task') d now ∈ s.log := by
    rw [hlog] at hmem
    rcases List.mem_append.mp hmem with hmem | hmem
    · exact hmem
    · exact absurd hmem (hnone i task' d now)
  have hgrow {r : Record κ ω} (hmem : r ∈ s.log) : r ∈ t.log := by
    rw [hlog]
    exact List.mem_append_left _ hmem
  exact {
    wellFormed := ht
    mapped := by
      rintro i task' e hw
      obtain ⟨hw, hne⟩ := hwaits.mp hw
      rw [hlookup, if_neg hne]
      exact h.mapped hw
    keys := by
      rintro k' i hk'
      rw [hlookup] at hk'
      split_ifs at hk' with hne
      obtain ⟨task', hl, rfl⟩ := h.keys hk'
      refine ⟨task', ?_, rfl⟩
      rcases hl with ⟨e, hw⟩ | hrun
      · exact .inl ⟨e, hwaits.mpr ⟨hw, hne⟩⟩
      · exact .inr (hback _ hrun hne)
    issued := fun hl => hgrow (h.issued (hlive hl))
    known := by
      rintro k' i hmem
      obtain ⟨hzero, hlt, task', halloc', htask'⟩ := h.known (hissued hmem)
      exact ⟨hzero, hcounter ▸ hlt, task', hgrow halloc', htask'⟩
    unique := fun hmem hmem' => h.unique (hissued hmem) (hissued hmem')
    retired := by
      rintro k' hk'
      rw [hlookup]
      split_ifs with hne
      · rfl
      rw [hlog] at hk'
      rcases hk'.of_append with hk' | hmem
      · exact h.retired hk'
      · rcases hnew _ hmem with hr | hr
        · exact hr.elim
        · exact absurd (by cases hr; rfl) hne
    staysCleared := by
      rw [hlog]
      exact h.staysCleared.append hnone
    oneShot := by
      rintro i task' d now hmem hshot
      obtain ⟨hlt, hnot, hreleased⟩ := h.oneShot (hstarted hmem) hshot
      refine ⟨hids ▸ hlt, fun task'' e hw => hnot task'' e (hwaits.mp hw).1, ?_⟩
      rw [hlookup]
      split_ifs with hk'
      · exact .inr rfl
      · rcases hreleased with hrun | hreleased
        · exact .inl (hback _ hrun hk')
        · exact .inr hreleased
    oneShots := by
      rw [hlog, oneShots_append, oneShots_eq_nil hnone, List.append_nil]
      exact h.oneShots
    kept := by
      rintro k' i task' hmem halloc' hrepeat hkept
      rw [hlookup]
      split_ifs with hk'
      · subst hk'
        exact absurd (hretired (hissued hmem) (halloc halloc') hrepeat) hkept
      · refine h.kept (hissued hmem) (halloc halloc') hrepeat fun hold => hkept ?_
        rw [hlog]
        exact hold.append
    due := by
      rintro i task' e hw
      rw [hnow]
      exact h.due (hwaits.mp hw).1
    started := by
      rintro i task' d now hmem
      obtain ⟨hissued', hdue⟩ := h.started (hstarted hmem)
      exact ⟨hgrow hissued', hdue⟩
    ready := by
      rintro i hi
      rw [htodo] at hi
      obtain ⟨hlt, hnot, hready⟩ := h.ready i hi
      refine ⟨hids ▸ hlt, fun hrun => hnot ((hrunning.map _).subset hrun), fun task' e hw => ?_⟩
      exact hready task' e (hwaits.mp hw).1
    todo := by
      rw [htodo]
      exact h.todo
    top := htop }

/-- A task that the map sends an id to has that id. -/
theorem Timers.timerId_eq (h : s.Timers) {k : ℕ} (hk : s.loop.jsTimers.lookup k = some id)
    (hlive : s.Live id task) : task.timerId = k := by
  obtain ⟨task', hlive', rfl⟩ := h.keys hk
  obtain ⟨-, -, first, halloc, hfirst⟩ := h.known (h.issued hlive')
  rw [← hfirst]
  exact (h.wellFormed.same_timer halloc hlive).2.symm

/-- Two timers with one id are one. -/
theorem Timers.id_unique (h : s.Timers) {id' : TaskId} {task' : TimerTask κ}
    (hlive : s.Live id task) (hlive' : s.Live id' task') (heq : task.timerId = task'.timerId) :
    id = id' := h.unique (h.issued hlive) (heq ▸ h.issued hlive')

/-- A script clears an id. -/
theorem Timers.clear (h : s.Timers) (k : ℕ) : (s.clear k).Timers := by
  have ht := h.wellFormed.clear k
  rw [clear_eq] at ht ⊢
  cases hk : s.loop.jsTimers.lookup k with
  | none =>
    -- no timer has the id
    rw [hk] at ht
    refine h.release ht k rfl (by simp) (fun {i task' e} => ?_) (fun k' => ?_) (List.Sublist.refl _)
      (fun _ hp _ => hp) (fun hmem _ _ => retired_cleared hmem) h.top rfl rfl rfl rfl
    · refine ⟨fun hw => ⟨hw, ?_⟩, fun hw => hw.1⟩
      rintro rfl
      exact Option.some_ne_none _ ((h.mapped hw).symm.trans hk)
    · split_ifs with hne
      · rw [hne]
        exact hk
      · rfl
  | some id =>
    rw [hk] at ht
    have hlookup (k' : ℕ) : (s.loop.jsTimers.erase k).lookup k' =
        if k' = k then none else s.loop.jsTimers.lookup k' := by
      split_ifs with hne
      · rw [hne, AList.lookup_erase]
      · rw [AList.lookup_erase_ne hne]
    simp only [cancel, EventLoop.cancelIfQueued] at ht ⊢
    cases hr : s.loop.tasks.remove id with
    | none =>
      -- the timer runs: only its id leaves the map
      rw [hr] at ht
      refine h.release ht k rfl (by simp) (fun {i task' e} => ?_) hlookup (List.Sublist.refl _)
        (fun _ hp _ => hp) (fun hmem _ _ => retired_cleared hmem) h.top rfl rfl rfl rfl
      refine ⟨fun hw => ⟨hw, ?_⟩, fun hw => hw.1⟩
      rintro rfl
      obtain rfl : i = id := Option.some.inj ((h.mapped hw).symm.trans hk)
      exact Option.some_ne_none _ (hw.1.symm.trans (TaskQueue.remove_eq_none.mp hr))
    | some p =>
      -- the timer is queued, and its task is cancelled
      obtain ⟨e, q⟩ := p
      rw [hr] at ht
      have hq := TaskQueue.lookup_remove hr
      refine h.release ht k (List.append_assoc ..) (by simp [Record.Aside]) (fun {i task' e'} => ?_)
        hlookup (List.Sublist.refl _) (fun _ hp _ => hp) (fun hmem _ _ => ?_) h.top rfl rfl rfl
        rfl
      · constructor
        · rintro ⟨he', htask'⟩
          replace he' := (hq i).symm.trans he'
          split_ifs at he' with hi
          refine ⟨⟨he', htask'⟩, ?_⟩
          rintro rfl
          exact hi (Option.some.inj ((h.mapped ⟨he', htask'⟩).symm.trans hk))
        · rintro ⟨⟨he', htask'⟩, hne⟩
          refine ⟨(hq i).trans ((if_neg ?_).trans he'), htask'⟩
          rintro rfl
          exact hne (h.timerId_eq hk (.inl ⟨e', he', htask'⟩))
      · exact List.append_assoc s.log [_] [_] ▸ retired_cleared hmem

/-- A timer of the batch is taken from the queue and its handler starts. -/
theorem Timers.startTimer (h : s.Timers) (ht : t.WellFormed) {e : TaskEntry (Task κ ω)}
    {q : TaskQueue (Task κ ω)} {rest : List TaskId}
    (hr : s.loop.tasks.remove id = some (e, q)) (htask : e.task = .timer task)
    (hloop : t.loop = { s.loop with tasks := q })
    (hlog : t.log = s.log ++ [.started id (.timer task) e.deadline s.now])
    (hrunning : t.running = (id, task) :: s.running) (hcounter : t.counter = s.counter)
    (hnow : t.now = s.now) (htodo : s.todo = id :: rest) (htodo' : t.todo = rest)
    (htop : ∀ f ∈ t.stack.tail, f.running = none) : t.Timers := by
  -- the timer was queued and now runs, so the timers there are stay the same
  have hself : s.Waits id task e := ⟨(TaskQueue.remove_eq_some hr).1, htask⟩
  have hwaits {i : TaskId} {task' : TimerTask κ} {e' : TaskEntry (Task κ ω)} :
      t.Waits i task' e' ↔ s.Waits i task' e' ∧ i ≠ id := by
    have hentry : t.entry i = if i = id then none else s.entry i := by
      rw [entry, hloop]
      exact TaskQueue.lookup_remove hr i
    rw [Waits, hentry]
    by_cases hi : i = id
    · rw [if_pos hi]
      exact ⟨fun hw => (by cases hw.1), fun hw => absurd hi hw.2⟩
    · rw [if_neg hi]
      exact ⟨fun hw => ⟨hw, hi⟩, fun hw => hw.1⟩
  have hlive {i : TaskId} {task' : TimerTask κ} : t.Live i task' ↔ s.Live i task' := by
    constructor
    · rintro (⟨e', hw⟩ | hrun)
      · exact .inl ⟨e', (hwaits.mp hw).1⟩
      · rw [hrunning] at hrun
        rcases List.mem_cons.mp hrun with heq | hrun
        · cases heq
          exact .inl ⟨e, hself⟩
        · exact .inr hrun
    · rintro (⟨e', hw⟩ | hrun)
      · by_cases hi : i = id
        · subst hi
          obtain rfl : e' = e := Option.some.inj (hw.1.symm.trans hself.1)
          obtain rfl : task' = task := Task.timer.inj (hw.2.symm.trans hself.2)
          exact .inr (by rw [hrunning]; exact List.mem_cons_self ..)
        · exact .inl ⟨e', hwaits.mpr ⟨hw, hi⟩⟩
      · exact .inr (by rw [hrunning]; exact List.mem_cons_of_mem _ hrun)
  have hlt : id < s.loop.nextId := h.wellFormed.lt_of_stands (h.wellFormed.stands hself.1)
  -- the only new record is that its handler was started
  have hgrow {r : Record κ ω} (hmem : r ∈ s.log) : r ∈ t.log := by
    rw [hlog]
    exact List.mem_append_left _ hmem
  have hissued {k : ℕ} {i : TaskId} (hmem : .issued k i ∈ t.log) : .issued k i ∈ s.log := by
    rw [hlog] at hmem
    simpa using hmem
  have hstarted {i : TaskId} {task' : TimerTask κ} {d : Option Instant} {now : Instant}
      (hmem : .started i (.timer task') d now ∈ t.log) :
      .started i (.timer task') d now ∈ s.log ∨
        i = id ∧ task' = task ∧ d = e.deadline ∧ now = s.now := by
    rw [hlog] at hmem
    simpa using hmem
  have htimers : t.loop.jsTimers = s.loop.jsTimers := by rw [hloop]
  have hids : t.loop.nextId = s.loop.nextId := by rw [hloop]
  have hnodup := h.todo
  rw [htodo, List.nodup_cons] at hnodup
  exact {
    wellFormed := ht
    mapped := by
      rintro i task' e' hw
      rw [htimers]
      exact h.mapped (hwaits.mp hw).1
    keys := by
      rintro k i hk
      rw [htimers] at hk
      obtain ⟨task', hl, htask'⟩ := h.keys hk
      exact ⟨task', hlive.mpr hl, htask'⟩
    issued := fun hl => hgrow (h.issued (hlive.mp hl))
    known := by
      rintro k i hmem
      obtain ⟨hzero, hlt', task', halloc, htask'⟩ := h.known (hissued hmem)
      exact ⟨hzero, hcounter ▸ hlt', task', hgrow halloc, htask'⟩
    unique := fun hmem hmem' => h.unique (hissued hmem) (hissued hmem')
    retired := by
      rintro k hk
      rw [htimers]
      rw [hlog] at hk
      rcases hk.of_append with hk | hmem
      · exact h.retired hk
      · simp at hmem
    staysCleared := by
      rw [hlog]
      -- its id is mapped, so it was not cleared
      refine h.staysCleared.concat ?_
      rintro i task' d now heq hretired
      cases heq
      exact Option.some_ne_none _ ((h.mapped hself).symm.trans (h.retired hretired))
    oneShot := by
      rintro i task' d now hmem hshot
      rw [hids, htimers, hrunning]
      rcases hstarted hmem with hmem | ⟨rfl, rfl, -⟩
      · obtain ⟨hlt', hnot, hreleased⟩ := h.oneShot hmem hshot
        exact ⟨hlt', fun task'' e' hw => hnot task'' e' (hwaits.mp hw).1,
          hreleased.imp_left (List.mem_cons_of_mem _)⟩
      · exact ⟨hlt, fun task'' e' hw => (hwaits.mp hw).2 rfl, .inl (List.mem_cons_self ..)⟩
    oneShots := by
      rw [hlog, oneShots_append]
      -- a timeout that has run is not queued, so this one has not
      by_cases hshot : task.interval = none
      · have hnew : CoreRuntime.oneShots
            [(.started id (.timer task) e.deadline s.now : Record κ ω)] = [id] := by
          simp [CoreRuntime.oneShots, Record.oneShot, hshot]
        rw [hnew]
        refine h.oneShots.append (List.nodup_singleton _) ?_
        rintro i hi hi'
        obtain rfl := List.mem_singleton.mp hi'
        obtain ⟨task', d, now, hmem, hnone⟩ := mem_oneShots.mp hi
        exact (h.oneShot hmem hnone).2.1 task e hself
      · have hnew : CoreRuntime.oneShots
            [(.started id (.timer task) e.deadline s.now : Record κ ω)] = [] := by
          simp [CoreRuntime.oneShots, Record.oneShot, hshot]
        rw [hnew, List.append_nil]
        exact h.oneShots
    kept := by
      rintro k i task' hmem halloc hrepeat hretired
      rw [htimers]
      refine h.kept (hissued hmem) ?_ hrepeat fun hold => hretired ?_
      · rw [hlog] at halloc
        simpa using halloc
      · rw [hlog]
        exact hold.append
    due := by
      rintro i task' e' hw
      rw [hnow]
      exact h.due (hwaits.mp hw).1
    started := by
      rintro i task' d now hmem
      rcases hstarted hmem with hmem | ⟨rfl, rfl, rfl, rfl⟩
      · obtain ⟨hissued', hdue⟩ := h.started hmem
        exact ⟨hgrow hissued', hdue⟩
      · -- the step turns to timers that are ready: the deadline has come
        obtain ⟨d, hd, hdue⟩ := h.due hself
        have hready := (h.ready i (by rw [htodo]; exact List.mem_cons_self ..)).2.2 _ _ hself
        exact ⟨hgrow (h.issued (.inl ⟨e, hself⟩)), d, hd, hdue hready⟩
    ready := by
      rintro i hi
      rw [htodo'] at hi
      obtain ⟨hlt', hnot, hready⟩ := h.ready i (by rw [htodo]; exact List.mem_cons_of_mem _ hi)
      rw [hids, hrunning]
      refine ⟨hlt', ?_, fun task' e' hw => hready task' e' (hwaits.mp hw).1⟩
      rintro hmem
      rcases List.mem_cons.mp hmem with heq | hmem
      · obtain rfl : i = id := heq
        exact hnodup.1 hi
      · exact hnot hmem
    todo := by
      rw [htodo']
      exact hnodup.2
    top := htop }

/-- An interval is queued again under its ids. -/
theorem Timers.requeue (h : s.Timers) (ht : t.WellFormed) {task' : TimerTask κ}
    {deadline : Instant} {rest : List (TaskId × TimerTask κ)}
    (hmap : s.loop.jsTimers.lookup task.timerId = some id) (hid : task'.timerId = task.timerId)
    (hrepeat : task.interval ≠ none)
    (hrunning : s.running = (id, task) :: rest) (hrunning' : t.running = rest)
    (htasks : t.loop.tasks = s.loop.tasks.insert ⟨id, .timer task', false, some deadline⟩)
    (htop : ∀ f ∈ t.stack.tail, f.running = none)
    (htimers : t.loop.jsTimers = s.loop.jsTimers) (hlog : t.log = s.log)
    (hids : t.loop.nextId = s.loop.nextId) (hcounter : t.counter = s.counter)
    (hnow : t.now = s.now) (htodo : t.todo = s.todo) : t.Timers := by
  -- the timer that runs is not queued, and becomes so
  have hself : s.Live id task := .inr (by rw [hrunning]; exact List.mem_cons_self ..)
  have hlook (i : TaskId) : t.entry i =
      if i = id then some ⟨id, .timer task', false, some deadline⟩ else s.entry i := by
    rw [entry, htasks, TaskQueue.lookup_insert]
  have hnew : t.Waits id task' ⟨id, .timer task', false, some deadline⟩ :=
    ⟨by rw [hlook, if_pos rfl], rfl⟩
  have haway (e : TaskEntry (Task κ ω)) : s.entry id ≠ some e := by
    intro he
    have := h.wellFormed.away (id, task) (by rw [hrunning]; exact List.mem_cons_self ..)
    exact Option.some_ne_none e (he.symm.trans this)
  have hwaits {i : TaskId} {task'' : TimerTask κ} {e : TaskEntry (Task κ ω)}
      (hw : t.Waits i task'' e) : s.Waits i task'' e ∨
        i = id ∧ task'' = task' ∧ e.deadline = some deadline ∧ e.ready = false := by
    obtain ⟨he, htask⟩ := hw
    rw [hlook] at he
    split_ifs at he with hi
    · rw [← Option.some.inj he] at htask ⊢
      exact .inr ⟨hi, (Task.timer.inj htask).symm, rfl, rfl⟩
    · exact .inl ⟨he, htask⟩
  have hsame {i : TaskId} {e : TaskEntry (Task κ ω)} (he : s.entry i = some e) :
      t.entry i = some e := by
    rw [hlook, if_neg ?_, he]
    rintro rfl
    exact haway e he
  exact {
    wellFormed := ht
    mapped := by
      rintro i task'' e hw
      rw [htimers]
      rcases hwaits hw with hw | ⟨rfl, rfl, -⟩
      · exact h.mapped hw
      · rw [hid, hmap]
    keys := by
      rintro k i hk
      rw [htimers] at hk
      obtain ⟨task'', hl, rfl⟩ := h.keys hk
      rcases hl with ⟨e, hw⟩ | hrun
      · exact ⟨task'', .inl ⟨e, hsame hw.1, hw.2⟩, rfl⟩
      · rw [hrunning] at hrun
        rcases List.mem_cons.mp hrun with heq | hrun
        · cases heq
          exact ⟨task', .inl ⟨_, hnew⟩, hid⟩
        · exact ⟨task'', .inr (hrunning' ▸ hrun), rfl⟩
    issued := by
      rintro i task'' hl
      rw [hlog]
      rcases hl with ⟨e, hw⟩ | hrun
      · rcases hwaits hw with hw | ⟨rfl, rfl, -⟩
        · exact h.issued (.inl ⟨e, hw⟩)
        · rw [hid]
          exact h.issued hself
      · rw [hrunning'] at hrun
        exact h.issued (.inr (by rw [hrunning]; exact List.mem_cons_of_mem _ hrun))
    known := by
      rw [hlog, hcounter]
      exact h.known
    unique := by
      rw [hlog]
      exact h.unique
    retired := by
      rw [hlog, htimers]
      exact h.retired
    staysCleared := by
      rw [hlog]
      exact h.staysCleared
    oneShot := by
      rintro i task'' d now hmem hshot
      rw [hlog] at hmem
      rw [hids, htimers]
      obtain ⟨hlt, hnot, hreleased⟩ := h.oneShot hmem hshot
      -- the timer that is queued again is an interval
      have hne : i ≠ id := by
        rintro rfl
        obtain ⟨-, -, first, halloc, hfirst⟩ := h.known (h.started hmem).1
        have hfirst' := h.wellFormed.same_timer halloc hself
        rcases hreleased with hrun | hreleased
        · obtain ⟨hinterval, -⟩ := h.wellFormed.same_timer halloc (.inr hrun)
          exact hrepeat (hfirst'.1.symm.trans (hinterval.trans hshot))
        · rw [← hfirst, hfirst'.2, hmap] at hreleased
          cases hreleased
      refine ⟨hlt, fun task₁ e hw => ?_, ?_⟩
      · rcases hwaits hw with hw | ⟨hi, -⟩
        · exact hnot task₁ e hw
        · exact hne hi
      · rcases hreleased with hrun | hreleased
        · rw [hrunning] at hrun
          rcases List.mem_cons.mp hrun with heq | hrun
          · cases heq
            exact absurd rfl hne
          · exact .inl (hrunning' ▸ hrun)
        · exact .inr hreleased
    oneShots := by
      rw [hlog]
      exact h.oneShots
    kept := by
      rw [hlog, htimers]
      exact h.kept
    due := by
      rintro i task'' e hw
      rw [hnow]
      rcases hwaits hw with hw | ⟨-, -, hdeadline, hready⟩
      · exact h.due hw
      · refine ⟨deadline, hdeadline, fun hr => ?_⟩
        rw [hready] at hr
        cases hr
    started := by
      rw [hlog]
      exact h.started
    ready := by
      rintro i hi
      rw [htodo] at hi
      rw [hids, hrunning']
      obtain ⟨hlt, hnot, hready⟩ := h.ready i hi
      rw [hrunning] at hnot
      refine ⟨hlt, fun hmem => hnot (List.mem_cons_of_mem _ hmem), fun task'' e hw => ?_⟩
      rcases hwaits hw with hw | ⟨rfl, -⟩
      · exact hready task'' e hw
      · exact absurd (List.mem_cons_self ..) hnot
    todo := by
      rw [htodo]
      exact h.todo
    top := htop }

/-- The handler of a timer has returned. -/
theorem Timers.finish (h : s.Timers) {n : ℕ} {frames : List (Frame κ ω)}
    (hs : s.stack = .handler id task n :: frames) :
    Timers { s with
      loop := task.finish s.loop id s.now, nesting := n, stack := .microtasks id :: frames } := by
  have ht := h.wellFormed.finish hs
  have hrunning : s.running = (id, task) :: frames.filterMap Frame.running := by
    rw [running, hs]
    rfl
  have htodo : s.todo = frames.flatMap Frame.todo := by
    rw [System.todo, hs]
    rfl
  have htop : ∀ f ∈ frames, f.running = none := by
    have htop := h.top
    rwa [hs] at htop
  have hself : s.Live id task := .inr (by rw [hrunning]; exact List.mem_cons_self ..)
  -- no other timer has its id
  have haway {i : TaskId} {task' : TimerTask κ} {e : TaskEntry (Task κ ω)}
      (hw : s.Waits i task' e) : task'.timerId ≠ task.timerId := by
    intro heq
    obtain rfl := h.id_unique (.inl ⟨e, hw⟩) hself heq
    have := h.wellFormed.away (i, task) (by rw [hrunning]; exact List.mem_cons_self ..)
    exact Option.some_ne_none e (hw.1.symm.trans this)
  have hback : ∀ p ∈ s.running, p.2.timerId ≠ task.timerId →
      p ∈ frames.filterMap Frame.running := by
    rintro p hp hne
    rw [hrunning] at hp
    rcases List.mem_cons.mp hp with rfl | hp
    · exact absurd rfl hne
    · exact hp
  have hsub : (frames.filterMap Frame.running).Sublist s.running := by
    rw [hrunning]
    exact List.sublist_cons_self ..
  -- and its interval is the one it was queued with first
  have hinterval {i : TaskId} {first : TimerTask κ} (hmem : .issued task.timerId i ∈ s.log)
      (halloc : .allocated i (.timer first) ∈ s.log) :
      i = id ∧ first.interval = task.interval := by
    obtain rfl := h.unique hmem (h.issued hself)
    exact ⟨rfl, (h.wellFormed.same_timer halloc hself).1⟩
  unfold TimerTask.finish at ht ⊢
  cases hrepeat : task.interval with
  | none =>
    -- the id of a timeout is released
    simp only [hrepeat] at ht ⊢
    refine h.release ht task.timerId (List.append_nil _).symm (by intros; contradiction) ?_ ?_
      hsub hback ?_ htop rfl rfl rfl htodo.symm
    · exact fun {i task' e} => ⟨fun hw => ⟨hw, haway hw⟩, fun hw => hw.1⟩
    · rintro k'
      split_ifs with hk'
      · rw [hk']
        exact AList.lookup_erase ..
      · exact AList.lookup_erase_ne hk'
    · rintro i first hmem halloc hne
      exact absurd ((hinterval hmem halloc).2.trans hrepeat) hne
  | some interval =>
    simp only [hrepeat, EventLoop.requeueJsTimer] at ht ⊢
    split_ifs at ht ⊢ with hmap
    -- an interval whose id is still mapped is queued again
    · refine h.requeue ht hmap ?_ (by rw [hrepeat]; exact Option.some_ne_none _) hrunning rfl rfl
        htop rfl rfl rfl rfl rfl htodo.symm
      rfl
    -- the interval was cleared while it ran
    · have hgone : s.loop.jsTimers.lookup task.timerId = none := by
        cases hk : s.loop.jsTimers.lookup task.timerId with
        | none => rfl
        | some i =>
          obtain ⟨task', hl, heq⟩ := h.keys hk
          rw [h.id_unique hl hself heq] at hk
          exact absurd hk hmap
      refine h.release ht task.timerId (List.append_nil _).symm (by intros; contradiction) ?_ ?_
        hsub hback ?_ htop rfl rfl rfl htodo.symm
      · exact fun {i task' e} => ⟨fun hw => ⟨hw, haway hw⟩, fun hw => hw.1⟩
      · rintro k'
        split_ifs with hk'
        · rw [hk']
          exact hgone
        · rfl
      · rintro i first hmem halloc hne
        by_contra hretired
        have hk := h.kept hmem halloc hne hretired
        rw [hgone] at hk
        cases hk

/-- The events of a loop whose timers are set and cleared by scripts alone. The loop is driven from
outside its tasks; other code queues, signals and cancels tasks of its own. -/
def Scripted (s : System κ ω) : Event κ ω → Prop
  | .code (.queue (.timer _)) | .code (.queueReady (.timer _)) | .code (.queueTimer (.timer _) _)
  | .code (.queueJsTimer _ _) | .code (.jsTimerFired _) | .code .popReady => False
  | .code (.cancelIfQueued id) | .code (.signalReady id) =>
    (s.entry id).all fun e => match e.task with
      | .timer _ => false
      | .other _ => true
  | .code .step => s.stack.isEmpty
  | _ => True

theorem Scripted.not_waits
    (h : ((s.entry id).all fun e => match e.task with
      | .timer _ => false
      | .other _ => true) = true) (task : TimerTask κ) (e : TaskEntry (Task κ ω)) :
    ¬ s.Waits id task e := by
  rintro ⟨he, htask⟩
  rw [he] at h
  simp [htask] at h

theorem Timers.setTimer (h : s.Timers) (handler : κ) (timeout : ℤ) (repeats : Bool) :
    (s.perform (.setTimer handler timeout repeats)).Sat (fun t => t.WellFormed → t.Timers)
      (fun _ => False) fun _ => True := by
  refine Outcome.sat_bind.mpr (Outcome.sat_bind.mpr ?_)
  refine Outcome.Sat.imp (P := fun r => s.counter ≤ r.1 ∧ r.1 ≠ 0 ∧ r.2 = r.1 + 1)
    ((allocateJsTimerId_sat h.wellFormed.timerIds _).mono (fun _ => id) (fun _ => id)
      fun _ _ => trivial) ?_
  rintro ⟨k, counter⟩ ⟨hk, hzero, hcounter⟩
  refine Outcome.sat_bind.mpr (nextTaskId_sat (fun ht => ?_) trivial)
  exact h.insertTimer ht hk hzero rfl rfl rfl rfl rfl hcounter rfl rfl

/-- The batch of a step that is not called from a task. -/
theorem Timers.batch (h : s.Timers) (hstack : s.stack = []) {batch : List TaskId}
    (ht : WellFormed { s with
      loop := { s.loop with batchBuf := [] }, stack := [.batch batch false] })
    (hnodup : batch.Nodup) (hready : ∀ id ∈ batch, ∃ e, s.entry id = some e ∧ e.ready = true) :
    Timers { s with loop := { s.loop with batchBuf := [] }, stack := [.batch batch false] } := by
  obtain ⟨loop, now, counter, nesting, handles, stack, outcome, log⟩ := s
  obtain rfl : stack = [] := hstack
  refine { h with wellFormed := ht, ready := ?_, todo := ?_, top := by intros; contradiction }
  · intro id hid
    obtain ⟨e, he, hr⟩ := hready id (by simpa [System.todo, Frame.todo] using hid)
    refine ⟨h.wellFormed.lt_of_stands (h.wellFormed.stands he), List.not_mem_nil, ?_⟩
    rintro task e' ⟨he', -⟩
    rwa [← Option.some.inj (he.symm.trans he')]
  · simpa [System.todo, Frame.todo] using hnodup

/-- The timers are advanced, and the batch of the step is taken. -/
theorem Timers.enter (h : s.Timers) (hstack : s.stack = []) (ht : t.WellFormed)
    (hcall : s.perform .step = .ok t) : t.Timers := by
  obtain ⟨n, q, hrun, hq, hlook, -⟩ :=
    TaskQueue.expireTimers_spec s.now h.wellFormed.indexed (Nat.lt_succ_self _)
  have hadvance := h.wellFormed.advanceTimers (Q := fun _ => False)
  rw [EventLoop.advanceTimers, hrun] at hadvance
  have hmid : Timers { s with loop := { s.loop with tasks := q } } :=
    h.relabel hadvance (f := fun _ e => e.deadline.any (· ≤ s.now)) hlook
      (fun id task e _ hany d hd => by simpa [Option.mem_def.mp hd] using hany) rfl rfl rfl le_rfl
      le_rfl le_rfl (List.Sublist.refl _) h.top
  simp only [System.perform, EventLoop.advanceTimers, hrun] at hcall
  cases hcall
  have hbuf : s.loop.batchBuf = [] := h.wellFormed.buffer
  simp only [hbuf, hstack, List.nil_append] at ht ⊢
  refine hmid.batch hstack ht hq.nodup_ready fun id hid => ?_
  obtain ⟨k, hk, rfl⟩ := List.mem_map.mp hid
  obtain ⟨i, e, he, hr, rfl⟩ := hq.mem_ready.mp hk
  exact ⟨e, (congrArg (fun i => AList.lookup i q.entries) (hq.own he)).trans he, hr⟩

theorem Timers.perform (h : s.Timers) {op : Op κ ω} (hop : Scripted s (.code op))
    (hstep : s.perform op = .ok t) : t.Timers := by
  have ht : t.WellFormed := by
    have hsat := h.wellFormed.perform op
    rwa [hstep] at hsat
  have hsat : (s.perform op).Sat (fun t => t.WellFormed → t.Timers) (fun _ => False)
      fun _ => True := by
    cases op with
    -- the operations that only `set_timer` and the loop itself make
    | queueJsTimer deadline makeTask => exact hop.elim
    | jsTimerFired timerId => exact hop.elim
    | popReady => exact hop.elim
    | step =>
      exact .of_value (fun t hcall ht => h.enter (List.isEmpty_iff.mp hop) ht hcall)
        fun _ => trivial
    | setTimer handler timeout repeats => exact h.setTimer handler timeout repeats
    | clearJsTimer timerId => exact fun _ => h.clear timerId
    -- a task of another kind is queued
    | queue task =>
      cases task with
      | timer task => exact hop.elim
      | other task =>
        refine Outcome.sat_bind.mpr (Outcome.sat_bind.mpr (nextTaskId_sat (fun ht => ?_) trivial))
        exact h.insertOther ht rfl rfl rfl rfl rfl rfl rfl
    | queueReady task =>
      cases task with
      | timer task => exact hop.elim
      | other task =>
        refine Outcome.sat_bind.mpr (Outcome.sat_bind.mpr (nextTaskId_sat (fun ht => ?_) trivial))
        exact h.insertOther ht rfl rfl rfl rfl rfl rfl rfl
    | queueTimer task deadline =>
      cases task with
      | timer task => exact hop.elim
      | other task =>
        refine Outcome.sat_bind.mpr (Outcome.sat_bind.mpr (nextTaskId_sat (fun ht => ?_) trivial))
        exact h.insertOther ht rfl rfl rfl rfl rfl rfl rfl
    -- what is cancelled or signalled from outside is no timer
    | cancelIfQueued id => exact fun _ => h.cancelOther (Scripted.not_waits hop)
    | signalReady id =>
      intro ht
      have hlook (i : TaskId) : (s.loop.tasks.markReady id).2.entries.lookup i =
          (s.entry i).map fun e => { e with ready := e.ready || decide (i = id) } := by
        refine (TaskQueue.lookup_markReady i).trans ?_
        split_ifs with hi
        · simp [hi]
        · simp [hi]
      have hnot (i : TaskId) (task : TimerTask κ) (e : TaskEntry (Task κ ω)) (hw : s.Waits i task e)
          (hi : decide (i = id) = true) : ∀ d ∈ e.deadline, d ≤ s.now := by
        rw [of_decide_eq_true hi] at hw
        exact absurd hw (Scripted.not_waits hop task e)
      unfold EventLoop.signalReady at ht ⊢
      rcases hm : s.loop.tasks.markReady id with ⟨_ | _, q⟩ <;> rw [hm] at hlook ht
      · exact h.relabel ht (f := fun i _ => i = id) hlook hnot rfl rfl rfl le_rfl le_rfl le_rfl
          (List.Sublist.refl _) h.top
      · exact h.relabel ht (f := fun i _ => i = id) hlook hnot rfl rfl rfl le_rfl le_rfl le_rfl
          (List.Sublist.refl _) h.top
    | advanceTimers =>
      obtain ⟨n, q, hrun, -, hlook, -⟩ :=
        TaskQueue.expireTimers_spec s.now h.wellFormed.indexed (Nat.lt_succ_self _)
      refine Outcome.sat_bind.mpr ?_
      rw [EventLoop.advanceTimers, hrun]
      exact fun ht => h.relabel ht (f := fun _ e => e.deadline.any (· ≤ s.now)) hlook
        (fun id task e _ hany d hd => by simpa [Option.mem_def.mp hd] using hany) rfl rfl rfl le_rfl
        le_rfl le_rfl (List.Sublist.refl _) h.top
    -- the rest does not touch the queue
    | acquireHandle =>
      refine Outcome.sat_bind.mpr (.of_value (fun loop hl ht => ?_) fun _ => trivial)
      rw [EventLoop.acquireHandle] at hl
      split_ifs at hl
      cases hl
      exact h.idle ht rfl rfl rfl rfl le_rfl le_rfl le_rfl (List.Sublist.refl _) h.top
    | dropHandle =>
      simp only [System.perform]
      split_ifs
      · exact fun ht => h
      · refine Outcome.sat_bind.mpr (.of_value (fun loop hl ht => ?_) fun _ => trivial)
        rw [EventLoop.dropHandle] at hl
        split_ifs at hl
        cases hl
        exact h.idle ht rfl rfl rfl rfl le_rfl le_rfl le_rfl (List.Sublist.refl _) h.top
    | requestStop =>
      exact fun ht => h.idle ht rfl rfl rfl rfl le_rfl le_rfl le_rfl (List.Sublist.refl _) h.top
    | spawnFuture =>
      exact fun ht => h.idle ht rfl rfl rfl rfl le_rfl le_rfl le_rfl (List.Sublist.refl _) h.top
    | endFuture =>
      exact fun ht => h.idle ht rfl rfl rfl rfl le_rfl le_rfl le_rfl (List.Sublist.refl _) h.top
  rw [hstep] at hsat
  exact hsat ht

/-- **Every event** of scripted timers keeps the agreement. -/
theorem Timers.step (h : s.Timers) {e : Event κ ω} (he : Scripted s e) (hstep : s.step e = .ok t) :
    t.Timers := by
  have ht : t.WellFormed := by
    have hsat := step_wellFormed h.wellFormed e
    rwa [hstep] at hsat
  cases e with
  | code op =>
    rw [System.step] at hstep
    split_ifs at hstep
    · exact h.perform he hstep
    · cases hstep
      exact h
  | tick d =>
    cases hstep
    exact h.idle ht rfl rfl rfl rfl le_rfl (Nat.le_add_right ..) le_rfl (List.Sublist.refl _) h.top
  | otherTimer =>
    cases hstep
    exact h.idle ht rfl rfl rfl rfl (Nat.le_succ _) le_rfl le_rfl (List.Sublist.refl _) h.top
  | taskDone threw =>
    -- a timer's handler has returned, or another task has
    rw [System.step] at hstep
    split at hstep
    · cases hstep
      exact h.finish ‹_›
    · rename_i id task frames hs
      cases hstep
      refine h.idle ht rfl rfl ?_ rfl le_rfl le_rfl le_rfl ?_ ?_
      · rw [running, running, hs]
        rfl
      · rw [System.todo, System.todo, hs]
        exact List.Sublist.refl _
      · have htop := h.top
        rwa [hs] at htop
    · cases hstep
      exact h
  | microtasksDone =>
    rw [System.step] at hstep
    split at hstep
    · rename_i id frames hs
      cases hstep
      refine h.idle ht rfl rfl ?_ rfl le_rfl le_rfl le_rfl ?_ ?_
      · rw [running, running, hs]
        rfl
      · rw [System.todo, System.todo, hs]
        exact List.Sublist.refl _
      · have htop := h.top
        rw [hs] at htop
        exact fun f hf => htop f (List.mem_of_mem_tail hf)
    · cases hstep
      exact h
  | stepDone =>
    rw [System.step] at hstep
    split at hstep
    · rename_i ranAny frames hs
      cases hstep
      refine h.idle ht rfl rfl ?_ rfl le_rfl le_rfl le_rfl ?_ ?_
      · rw [running, running, hs]
        rfl
      · rw [System.todo, System.todo, hs]
        exact List.Sublist.refl _
      · have htop := h.top
        rw [hs] at htop
        exact fun f hf => htop f (List.mem_of_mem_tail hf)
    · cases hstep
      exact h
  | dispatch =>
    rw [System.step] at hstep
    split at hstep
    · rename_i id todo ranAny frames hs
      have hrunning : s.running = frames.filterMap Frame.running := by
        rw [running, hs]
        rfl
      have htodo : s.todo = id :: (todo ++ frames.flatMap Frame.todo) := by
        rw [System.todo, hs]
        rfl
      have htop := h.top
      rw [hs] at htop
      cases hr : s.loop.tasks.remove id with
      | none =>
        -- the task was cancelled after the batch had been taken
        rw [hr] at hstep
        cases hstep
        refine h.idle ht rfl rfl hrunning.symm rfl le_rfl le_rfl le_rfl ?_ htop
        rw [htodo]
        exact List.sublist_cons_self ..
      | some p =>
        obtain ⟨e, q⟩ := p
        rw [hr] at hstep
        have hq := TaskQueue.lookup_remove hr
        cases htask : e.task with
        | timer task =>
          simp only [htask] at hstep
          cases hstep
          refine h.startTimer ht hr htask rfl rfl ?_ rfl rfl htodo rfl ?_
          · rw [hrunning]
            rfl
          · rintro f hf
            rcases List.mem_cons.mp hf with rfl | hf
            exacts [rfl, htop f hf]
        | other task =>
          simp only [htask] at hstep
          cases hstep
          refine h.carry ht
            (show _ = s.log ++ [.started id (.other task) e.deadline s.now] from rfl) ?_ ?_ ?_ ?_
            rfl le_rfl le_rfl le_rfl ?_ ?_
          · rintro r hr
            rw [List.mem_singleton.mp hr]
            trivial
          · rintro i task' e' ⟨he', htask'⟩
            replace he' := (hq i).symm.trans he'
            split_ifs at he'
            exact ⟨e', ⟨he', htask'⟩, rfl, fun hr => hr, .inl⟩
          · rintro i task' e' ⟨he', htask'⟩
            refine ⟨e', (hq i).trans ((if_neg ?_).trans he'), htask'⟩
            rintro rfl
            rw [← Option.some.inj ((TaskQueue.remove_eq_some hr).1.symm.trans he'), htask] at htask'
            cases htask'
          · rw [hrunning]
            rfl
          · rw [htodo]
            exact List.sublist_cons_self ..
          · rintro f hf
            rcases List.mem_cons.mp hf with rfl | hf
            exacts [rfl, htop f hf]
    · cases hstep
      exact h

/-- What every scripted run keeps. -/
theorem Timers.run (h : s.Timers) (hrun : (systemMachine κ ω).RunWhere Scripted s t) : t.Timers :=
  hrun.inv h fun _ _ _ hs he hstep => hs.step he (Outcome.eq_ok_of_state? hstep)

/-- At most one timer runs. -/
theorem Timers.running_le (h : s.Timers) : s.running.length ≤ 1 := by
  have htop := h.top
  rw [running]
  cases hs : s.stack with
  | nil => exact Nat.zero_le _
  | cons f frames =>
    rw [hs] at htop
    have hnil : frames.filterMap Frame.running = [] :=
      List.filterMap_eq_nil_iff.mpr fun f hf => htop f hf
    rw [List.filterMap_cons, hnil]
    cases f.running <;> simp

/-- **The timers of a loop over a whole run** in which scripts and timer callbacks set and clear
timers, whatever ids they clear and whether or not callbacks throw. A queued timer is the one its id
is mapped to, and an id is mapped to a timer that is queued or is the one that runs. Ids are not
zero, and no two timers share one. After an issued id was cleared, no handler of its timer starts.
A timeout's handler starts once at most, and its id is released when it returns. An interval that
was not cleared is queued or runs. No handler starts before the deadline it was queued with. -/
theorem timers_agree {now : Instant} {counter : ℕ}
    (hrun : (systemMachine κ ω).RunWhere Scripted (initial now counter) t) :
    (∀ id task e, t.Waits id task e → t.loop.jsTimers.lookup task.timerId = some id) ∧
    (∀ k id, t.loop.jsTimers.lookup k = some id → ∃ task, t.Live id task ∧ task.timerId = k) ∧
    t.running.length ≤ 1 ∧
    (∀ id task, t.Live id task → task.timerId ≠ 0) ∧
    (∀ id id' task task', t.Live id task → t.Live id' task' → task.timerId = task'.timerId →
      id = id') ∧
    StaysCleared t.log ∧
    (oneShots t.log).Nodup ∧
    (∀ id task d now, .started id (.timer task) d now ∈ t.log → task.interval = none →
      (id, task) ∈ t.running ∨ t.loop.jsTimers.lookup task.timerId = none) ∧
    (∀ k id task, .issued k id ∈ t.log → .allocated id (.timer task) ∈ t.log →
      task.interval ≠ none → ¬ Retired t.log k → ∃ task', t.Live id task' ∧ task'.timerId = k) ∧
    ∀ id task d now, .started id (.timer task) d now ∈ t.log → ∃ x, d = some x ∧ x ≤ now := by
  have h := (timers_initial now counter).run hrun
  refine ⟨fun _ _ _ hw => h.mapped hw, fun _ _ hk => h.keys hk, h.running_le,
    fun _ _ hl => (h.known (h.issued hl)).1, fun _ _ _ _ hl hl' heq => h.id_unique hl hl' heq,
    h.staysCleared, h.oneShots, fun _ _ _ _ hmem hshot => (h.oneShot hmem hshot).2.2,
    fun _ _ _ hmem halloc hrepeat hretired => h.keys (h.kept hmem halloc hrepeat hretired),
    fun _ _ _ _ hmem => (h.started hmem).2⟩

instance : DecidablePred (Scripted s) := by
  intro e
  unfold Scripted
  split <;> infer_instance

/-- An interval fires, sets a timeout and clears itself; the timeout fires in a later step. -/
def clearingRun : List (Event ℕ ℕ) :=
  [.code (.setTimer 7 5 true), .tick 5000000, .code .step, .dispatch,
    .code (.setTimer 8 0 false), .code (.clearJsTimer 1), .taskDone true, .microtasksDone,
    .stepDone, .code .step, .dispatch, .taskDone false, .microtasksDone, .stepDone]

/-- The interval was not queued again, and the timeout ran and released its id. -/
theorem timers_agree_clearing : ∃ t, (systemMachine ℕ ℕ).RunWhere Scripted (initial 0 1) t ∧
    starts t.log = [0, 1] ∧ t.running.length ≤ 1 ∧ StaysCleared t.log := by
  have hcheck : ((systemMachine ℕ ℕ).exec (initial 0 1) clearingRun).any
      (fun t => starts t.log == [0, 1]) = true := by decide
  obtain ⟨t, hexec, hstarts⟩ := (Option.any_eq_true ..).mp hcheck
  have hrun : (systemMachine ℕ ℕ).RunWhere Scripted (initial 0 1) t :=
    Machine.runWhere_of_exec (by decide) hexec
  obtain ⟨-, -, hrunning, -, -, hcleared, -⟩ := timers_agree hrun
  exact ⟨t, hrun, beq_iff_eq.mp hstarts, hrunning, hcleared⟩

end System

end CoreRuntime
