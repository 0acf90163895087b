import StarlingMonkey.Lib.Crossings
import StarlingMonkey.Lib.Run
import StarlingMonkey.Serve.RequestBody

/-!
# The accept loop of the native server

`run_server` accepts connections, polls them and the work their requests leave behind, and stops
accepting while it is at capacity. What that is is computed once for each step of the loop, after
the work registered meanwhile was collected.

* `Server` is the loop between two polls, and `serverMachine` polls it in any order.
* `Sequential` is the invariant of isolated mode, in which one connection is served at a time and
  the next one only once the work the last one left behind is over.
* `isolated_sequential` is the law: realms are entered and exited in turn.
-/

namespace Serve

/-- `RequestHandlingMode`. -/
inductive RequestHandlingMode where
  | shared
  | isolated
deriving DecidableEq, Repr

/-- `ServeContext::keep_alive`. -/
def RequestHandlingMode.keepAlive (mode : RequestHandlingMode) : Bool := mode = .shared

/-- A realm that is entered. -/
inductive Realm where
  /-- The default global's. -/
  | server
  /-- That of the global of a request. -/
  | request (q : ℕ)
deriving DecidableEq, Repr

/-- The head of a request, as far as it can be refused. -/
structure RequestHead where
  /-- The number of `Host` fields. -/
  hosts : ℕ
  /-- The `Content-Length`, a malformed one being `some none`. -/
  contentLength : Option (Option ℕ)
deriving DecidableEq, Repr

/-- `reject_multiple_host_headers`. -/
def rejectMultipleHostHeaders (head : RequestHead) : Except ℕ Unit :=
  if 1 < head.hosts then .error 400 else .ok ()

/-- `declared_body_length`. -/
def declaredBodyLength (head : RequestHead) (limits : ServeLimits) : Except ℕ (Option ℕ) :=
  match head.contentLength with
  | none => .ok none
  | some none => .error 400
  | some (some length) =>
    if limits.maxRequestBodyBytes < length then .error 413
    else .ok (if 0 < length then some length else none)

/-- What a connection is in the middle of. -/
inductive ConnectionPhase where
  /-- hyper reads a head. -/
  | reading
  /-- `evaluate_into_request_global` of a request. -/
  | evaluating (q : ℕ)
  /-- `dispatch_fetch` of a request. -/
  | dispatching (q : ℕ)
  /-- hyper sends the response. -/
  | responding (status : ℕ)
deriving DecidableEq, Repr

/-- The request whose realm `serve_request` holds. -/
def ConnectionPhase.request : ConnectionPhase → Option ℕ
  | .evaluating q | .dispatching q => some q
  | _ => none

/-- The accept loop, waiting for a step. -/
structure Server where
  mode : RequestHandlingMode
  maxConnections : ℕ
  limits : ServeLimits
  inFlight : List (ℕ × ConnectionPhase)
  /-- The requests whose work is registered, and not collected. -/
  registered : List ℕ
  /-- The requests whose work is collected. -/
  work : List ℕ
  /-- As it was computed for this step. -/
  atCapacity : Bool
  /-- How many connections were accepted. -/
  accepted : ℕ
  /-- How many requests were started. -/
  requests : ℕ
  /-- The entries and exits of realms. -/
  realms : List (Crossing Realm)
  /-- It has returned. -/
  stopped : Bool

/-- How a poll takes a connection on. -/
inductive Progress where
  /-- hyper has read a head, and calls `serve_request`. -/
  | head (head : RequestHead)
  /-- The evaluation is over; it may have failed, or run out of time. -/
  | evaluated (failed : Bool)
  /-- The request is dispatched. -/
  | dispatched (status : ℕ)
  /-- hyper has sent the response. -/
  | responded
  /-- The connection ends early. -/
  | closed
deriving DecidableEq, Repr

/-- What happens to the accept loop. -/
inductive ServerEvent where
  | shutdown
  /-- A connection comes in, or fails to. -/
  | accept (failed : Bool)
  /-- The work is polled, and some of it may be over. -/
  | pollWork (done : Option ℕ)
  /-- A connection is polled. -/
  | pollConnection (c : ℕ) (progress : Progress)
deriving DecidableEq, Repr

namespace Server

/-- `max_in_flight`. -/
def maxInFlight (s : Server) : ℕ := if s.mode.keepAlive then s.maxConnections else 1

/-- The start of an iteration. -/
def iterate (s : Server) : Server :=
  let work := s.work ++ s.registered
  { s with
    work := work
    registered := []
    atCapacity :=
      s.maxInFlight ≤ s.inFlight.length || (!s.mode.keepAlive && !work.isEmpty) }

/-- The server, when its accept loop starts. -/
def initial (mode : RequestHandlingMode) (maxConnections : ℕ) (limits : ServeLimits) : Server :=
  iterate ⟨mode, maxConnections, limits, [], [], [], false, 0, 0, [.enter .server], false⟩

/-- `enter_request_realm`. -/
def enterRealm (s : Server) (q : ℕ) : Server :=
  match s.mode with
  | .shared => s
  | .isolated => { s with realms := s.realms ++ [.enter (.request q)] }

/-- What `enter_request_realm` returned is dropped. -/
def exitRealm (s : Server) (q : ℕ) : Server :=
  match s.mode with
  | .shared => s
  | .isolated => { s with realms := s.realms ++ [.exit (.request q)] }

/-- A connection goes on. -/
def setPhase (s : Server) (c : ℕ) (phase : ConnectionPhase) : Server :=
  { s with inFlight := s.inFlight.map fun x => if x.1 = c then (c, phase) else x }

/-- A connection is over, and the step is `ConnectionDone`. -/
def connectionDone (s : Server) (c : ℕ) : Server :=
  iterate { s with inFlight := s.inFlight.filter fun x => x.1 ≠ c }

/-- `serve_request`, up to its first `await`. -/
def serveRequest (s : Server) (c : ℕ) (head : RequestHead) : Server :=
  match rejectMultipleHostHeaders head, declaredBodyLength head s.limits with
  | .error status, _ | .ok _, .error status => s.setPhase c (.responding status)
  | .ok _, .ok _ =>
    let q := s.requests
    let s := { s with requests := q + 1 }.enterRealm q
    s.setPhase c (match s.mode with
      | .shared => .dispatching q
      | .isolated => .evaluating q)

/-- A connection is polled. -/
def pollConnection (s : Server) (c : ℕ) (progress : Progress) : Server :=
  match s.inFlight.lookup c, progress with
  | none, _ => s
  | some .reading, .head head => s.serveRequest c head
  | some (.evaluating q), .evaluated true => (s.exitRealm q).setPhase c (.responding 500)
  | some (.evaluating q), .evaluated false => s.setPhase c (.dispatching q)
  | some (.dispatching q), .dispatched status =>
    { s with registered := s.registered ++ [q] }.setPhase c (.responding status)
  | some (.responding _), .responded =>
    if s.mode.keepAlive then s.setPhase c .reading else s.connectionDone c
  | some phase, .closed =>
    match phase.request with
    | some q => (s.exitRealm q).connectionDone c
    | none => s.connectionDone c
  | some _, _ => s

/-- The work is polled, `finish_request` of the requests. -/
def pollWork (s : Server) (done : Option ℕ) : Server :=
  let s := { s with work := s.work ++ s.registered, registered := [] }
  match done with
  | none => s
  | some q =>
    if q ∈ s.work then iterate ({ s with work := s.work.erase q }.exitRealm q) else s

/-- The requests whose realm is entered, where requests have their own. -/
def holders (s : Server) : List ℕ :=
  s.inFlight.filterMap (fun x => x.2.request) ++ s.work ++ s.registered

/-- Everything is dropped on the way out. -/
def shutdown (s : Server) : Server :=
  let exits :=
    match s.mode with
    | .shared => []
    | .isolated => s.holders.map Realm.request
  { s with
    inFlight := []
    work := []
    registered := []
    realms := s.realms ++ (exits ++ [.server]).map .exit
    stopped := true }

/-- One event. -/
def step (s : Server) (e : ServerEvent) : Server :=
  if s.stopped then s
  else
    match e with
    | .shutdown => s.shutdown
    | .accept failed =>
      if s.atCapacity then s
      else if failed then s.iterate
      else
        iterate { s with
          inFlight := s.inFlight ++ [(s.accepted, .reading)]
          accepted := s.accepted + 1 }
    | .pollWork done => s.pollWork done
    | .pollConnection c progress => s.pollConnection c progress

end Server

/-- The accept loop as a machine. -/
def serverMachine : Machine Empty Empty Server ServerEvent := ⟨fun s e => .ok (s.step e)⟩

/-! ### What polling changes -/

namespace Server

/-- No connection was accepted, and the capacity was not computed anew. -/
structure Narrower (s s' : Server) : Prop where
  mode : s'.mode = s.mode
  maxConnections : s'.maxConnections = s.maxConnections
  stopped : s'.stopped = s.stopped
  accepted : s'.accepted = s.accepted
  atCapacity : s'.atCapacity = s.atCapacity
  inFlight : s'.inFlight.length ≤ s.inFlight.length

section Polling

variable {s s' s'' : Server} {c q : ℕ} {phase : ConnectionPhase}

theorem Narrower.refl (s : Server) : Narrower s s := ⟨rfl, rfl, rfl, rfl, rfl, le_rfl⟩

theorem Narrower.trans (h : Narrower s s') (h' : Narrower s' s'') : Narrower s s'' :=
  ⟨h'.mode.trans h.mode, h'.maxConnections.trans h.maxConnections, h'.stopped.trans h.stopped,
    h'.accepted.trans h.accepted, h'.atCapacity.trans h.atCapacity, h'.inFlight.trans h.inFlight⟩

theorem Narrower.setPhase (s : Server) (c : ℕ) (phase : ConnectionPhase) :
    Narrower s (s.setPhase c phase) :=
  ⟨rfl, rfl, rfl, rfl, rfl, by simp [Server.setPhase]⟩

theorem Narrower.enterRealm (s : Server) (q : ℕ) : Narrower s (s.enterRealm q) := by
  rw [Server.enterRealm]
  split <;> exact ⟨rfl, rfl, rfl, rfl, rfl, le_rfl⟩

theorem Narrower.exitRealm (s : Server) (q : ℕ) : Narrower s (s.exitRealm q) := by
  rw [Server.exitRealm]
  split <;> exact ⟨rfl, rfl, rfl, rfl, rfl, le_rfl⟩

theorem Narrower.serveRequest (s : Server) (c : ℕ) (head : RequestHead) :
    Narrower s (s.serveRequest c head) := by
  rw [Server.serveRequest.eq_def]
  split
  · exact .setPhase ..
  · exact .setPhase ..
  · have hcount : Narrower s { s with requests := s.requests + 1 } :=
      ⟨rfl, rfl, rfl, rfl, rfl, le_rfl⟩
    exact (hcount.trans (.enterRealm ..)).trans (.setPhase ..)

/-- The connection is gone before the next iteration. -/
theorem Narrower.connectionDone (h : Narrower s s') (c : ℕ) :
    ∃ s'', Narrower s s'' ∧ s'.connectionDone c = s''.iterate := by
  have hfilter : Narrower s' { s' with inFlight := s'.inFlight.filter fun x => x.1 ≠ c } :=
    ⟨rfl, rfl, rfl, rfl, rfl, List.length_filter_le ..⟩
  exact ⟨_, h.trans hfilter, rfl⟩

/-- **A poll of a connection** accepts none, and starts an iteration at most at its end. -/
theorem pollConnection_narrower (s : Server) (c : ℕ) (progress : Progress) :
    ∃ s', Narrower s s' ∧
      (s.pollConnection c progress = s' ∨ s.pollConnection c progress = s'.iterate) := by
  have hstay {s' : Server} (h : Narrower s s') :
      ∃ s'', Narrower s s'' ∧ (s' = s'' ∨ s' = s''.iterate) := ⟨s', h, .inl rfl⟩
  have hdone {s' : Server} (h : Narrower s s') (c : ℕ) :
      ∃ s'', Narrower s s'' ∧ (s'.connectionDone c = s'' ∨ s'.connectionDone c = s''.iterate) := by
    obtain ⟨s'', hs'', heq⟩ := h.connectionDone c
    exact ⟨s'', hs'', .inr heq⟩
  rw [Server.pollConnection.eq_def]
  split
  next => exact hstay (.refl s)
  next => exact hstay (.serveRequest ..)
  next => exact hstay ((Narrower.exitRealm ..).trans (.setPhase ..))
  next => exact hstay (.setPhase ..)
  next q status _ =>
    have hregister : Narrower s { s with registered := s.registered ++ [q] } :=
      ⟨rfl, rfl, rfl, rfl, rfl, le_rfl⟩
    exact hstay (hregister.trans (.setPhase ..))
  next =>
    split_ifs
    · exact hstay (.setPhase ..)
    · exact hdone (.refl s) c
  next =>
    split
    next => exact hdone (.exitRealm ..) c
    next => exact hdone (.refl s) c
  next => exact hstay (.refl s)

/-- **A poll of the work** accepts no connection either. -/
theorem pollWork_narrower (s : Server) (done : Option ℕ) :
    ∃ s', Narrower s s' ∧ (s.pollWork done = s' ∨ s.pollWork done = s'.iterate) := by
  have hcollect : Narrower s { s with work := s.work ++ s.registered, registered := [] } :=
    ⟨rfl, rfl, rfl, rfl, rfl, le_rfl⟩
  cases done with
  | none => exact ⟨_, hcollect, .inl rfl⟩
  | some q =>
    simp only [Server.pollWork]
    split_ifs
    · have herase : Narrower s
          { s with work := (s.work ++ s.registered).erase q, registered := [] } :=
        ⟨rfl, rfl, rfl, rfl, rfl, le_rfl⟩
      exact ⟨_, herase.trans (.exitRealm ..), .inr rfl⟩
    · exact ⟨_, hcollect, .inl rfl⟩

/-- Only a step that is not at capacity accepts a connection. -/
theorem accepted_step {e : ServerEvent} (h : (s.step e).accepted ≠ s.accepted) :
    s.stopped = false ∧ s.atCapacity = false := by
  rw [Server.step.eq_def] at h
  by_cases hstopped : s.stopped = true
  · rw [if_pos hstopped] at h
    exact absurd rfl h
  · rw [if_neg hstopped] at h
    refine ⟨Bool.eq_false_of_not_eq_true hstopped, ?_⟩
    cases e with
    | accept failed =>
      by_contra hfull
      rw [Bool.not_eq_false] at hfull
      exact h (by simp only [hfull, if_true])
    | shutdown => exact absurd rfl h
    | pollWork done =>
      obtain ⟨s', hs', heq | heq⟩ := s.pollWork_narrower done
      · exact absurd ((congrArg Server.accepted heq).trans hs'.accepted) h
      · exact absurd ((congrArg Server.accepted heq).trans hs'.accepted) h
    | pollConnection c progress =>
      obtain ⟨s', hs', heq | heq⟩ := s.pollConnection_narrower c progress
      · exact absurd ((congrArg Server.accepted heq).trans hs'.accepted) h
      · exact absurd ((congrArg Server.accepted heq).trans hs'.accepted) h

end Polling

end Server

/-! ### Isolated mode -/

namespace Server

/-- What isolated mode keeps, but for the capacity. -/
structure Serial (s : Server) : Prop where
  isolated : s.mode = .isolated
  running : s.stopped = false
  one : s.inFlight.length ≤ 1
  /-- Nothing is left behind while a request is on its way. -/
  busy : ∀ c phase, (c, phase) ∈ s.inFlight → (∀ status, phase ≠ .responding status) →
    s.work = [] ∧ s.registered = []
  few : s.work.length + s.registered.length ≤ 1
  nested : Crossing.Nested s.realms (s.holders.map .request ++ [.server])

/-- **The invariant** of isolated mode. -/
structure Sequential (s : Server) : Prop extends Serial s where
  free : s.atCapacity = false → s.inFlight = [] ∧ s.work = [] ∧ s.registered = []

section Isolated

variable {s : Server} {c q : ℕ} {phase : ConnectionPhase}

theorem Serial.maxInFlight (h : s.Serial) : s.maxInFlight = 1 := by
  rw [Server.maxInFlight, h.isolated]
  rfl

/-- The next iteration sees the work that was registered. -/
theorem Serial.iterate (h : s.Serial) : s.iterate.Sequential where
  isolated := h.isolated
  running := h.running
  one := h.one
  busy := by
    intro c phase hmem hphase
    obtain ⟨hwork, hregistered⟩ := h.busy c phase hmem hphase
    refine ⟨?_, rfl⟩
    show s.work ++ s.registered = []
    rw [hwork, hregistered]
    rfl
  few := by
    have := h.few
    show (s.work ++ s.registered).length + 0 ≤ 1
    rw [List.length_append]
    omega
  nested := by
    have hholders : s.iterate.holders = s.holders := by
      simp [holders, Server.iterate]
    rw [hholders]
    exact h.nested
  free := by
    intro hfree
    have hkeepAlive : s.mode.keepAlive = false := by
      rw [h.isolated]
      rfl
    simp only [Server.iterate, h.maxInFlight, hkeepAlive, Bool.not_false, Bool.true_and,
      Bool.or_eq_false_iff, decide_eq_false_iff_not, Nat.not_le, Nat.lt_one_iff,
      List.length_eq_zero_iff, Bool.not_eq_false', List.isEmpty_iff] at hfree
    exact ⟨hfree.1, hfree.2, rfl⟩

/-- The connection that is polled is the only one. -/
theorem Serial.inFlight_eq (h : s.Serial) (hlookup : s.inFlight.lookup c = some phase) :
    s.inFlight = [(c, phase)] := by
  have hone := h.one
  rcases hin : s.inFlight with _ | ⟨⟨c', phase'⟩, rest⟩
  · rw [hin] at hlookup
    cases hlookup
  · rw [hin, List.length_cons] at hone
    obtain rfl := List.length_eq_zero_iff.mp (Nat.le_zero.mp (Nat.le_of_succ_le_succ hone))
    rw [hin] at hlookup
    by_cases heq : c = c'
    · subst heq
      rw [List.lookup_cons_self, Option.some.injEq] at hlookup
      rw [hlookup]
    · have hne : (c == c') = false := beq_eq_false_iff_ne.mpr heq
      rw [List.lookup_cons, hne] at hlookup
      cases hlookup

theorem Sequential.atCapacity (h : s.Sequential) (hin : s.inFlight = [(c, phase)]) :
    s.atCapacity = true := by
  by_contra hnot
  have hfree := (h.free (Bool.eq_false_of_not_eq_true hnot)).1
  rw [hin] at hfree
  cases hfree

theorem setPhase_inFlight (hin : s.inFlight = [(c, phase)]) (phase' : ConnectionPhase) :
    (s.setPhase c phase').inFlight = [(c, phase')] := by
  simp [setPhase, hin]

theorem holders_eq (hin : s.inFlight = [(c, phase)]) :
    s.holders = phase.request.toList ++ s.work ++ s.registered := by
  rw [holders, hin, List.filterMap_cons, List.filterMap_nil]
  cases phase.request <;> rfl

/-- A connection goes on, and the realm of its request is entered, exited or handed over. -/
theorem Sequential.goOn (h : s.Sequential) (hin : s.inFlight = [(c, phase)]) {s' : Server}
    {phase' : ConnectionPhase} (hmode : s'.mode = s.mode) (hstopped : s'.stopped = s.stopped)
    (hcapacity : s'.atCapacity = s.atCapacity) (hin' : s'.inFlight = [(c, phase')])
    (hbusy : (∀ status, phase' ≠ .responding status) → s'.work = [] ∧ s'.registered = [])
    (hfew : s'.work.length + s'.registered.length ≤ 1)
    (hnested : Crossing.Nested s'.realms
      ((phase'.request.toList ++ s'.work ++ s'.registered).map .request ++ [.server])) :
    s'.Sequential where
  isolated := hmode.trans h.isolated
  running := hstopped.trans h.running
  one := by
    rw [hin']
    exact le_rfl
  busy := by
    intro c' phase'' hmem
    rw [hin', List.mem_singleton, Prod.mk.injEq] at hmem
    rw [hmem.2]
    exact hbusy
  few := hfew
  nested := by
    rw [holders_eq hin']
    exact hnested
  free := by
    intro hfree
    rw [hcapacity, h.atCapacity hin] at hfree
    cases hfree

/-- The realms that are entered, for a connection whose request left nothing behind. -/
theorem Serial.nested_busy (h : s.Serial) (hin : s.inFlight = [(c, phase)])
    (hwork : s.work = []) (hregistered : s.registered = []) :
    Crossing.Nested s.realms (phase.request.toList.map .request ++ [.server]) := by
  have hnested := h.nested
  rwa [holders_eq hin, hwork, hregistered, List.append_nil, List.append_nil] at hnested

/-- The end of a connection, whose realm was exited if it still held one. -/
theorem Serial.connectionDone (h : s.Serial) (hin : s.inFlight = [(c, phase)]) {s' : Server}
    (hmode : s'.mode = s.mode) (hstopped : s'.stopped = s.stopped)
    (hin' : s'.inFlight = s.inFlight) (hwork : s'.work = s.work)
    (hregistered : s'.registered = s.registered)
    (hnested : Crossing.Nested s'.realms ((s.work ++ s.registered).map .request ++ [.server])) :
    (s'.connectionDone c).Sequential := by
  have hnil : (s'.inFlight.filter fun x => x.1 ≠ c) = [] := by
    simp [hin', hin]
  refine Serial.iterate ⟨hmode.trans h.isolated, hstopped.trans h.running, ?_, ?_, ?_, ?_⟩
  · show (s'.inFlight.filter fun x => x.1 ≠ c).length ≤ 1
    rw [hnil]
    exact Nat.zero_le 1
  · intro c' phase' hmem
    have hmem : (c', phase') ∈ s'.inFlight.filter fun x => x.1 ≠ c := hmem
    rw [hnil] at hmem
    cases hmem
  · show s'.work.length + s'.registered.length ≤ 1
    rw [hwork, hregistered]
    exact h.few
  · have hholders : Server.holders { s' with inFlight := s'.inFlight.filter fun x => x.1 ≠ c } =
        s.work ++ s.registered := by
      rw [holders, hnil, hwork, hregistered]
      rfl
    rw [hholders]
    exact hnested

/-! ### Every event -/

/-- **`serve_request`** refuses the request, or enters its realm. -/
theorem Sequential.serveRequest (h : s.Sequential) (hin : s.inFlight = [(c, .reading)])
    (head : RequestHead) : (s.serveRequest c head).Sequential := by
  obtain ⟨hwork, hregistered⟩ := h.busy c .reading (by simp [hin]) (by rintro status ⟨⟩)
  have hnested := h.nested_busy hin hwork hregistered
  have hrefused (status : ℕ) : (s.setPhase c (.responding status)).Sequential := by
    refine h.goOn hin rfl rfl rfl (setPhase_inFlight hin _) (fun hnot => absurd rfl (hnot status))
      h.few ?_
    show Crossing.Nested s.realms (([] ++ s.work ++ s.registered).map .request ++ [.server])
    rw [hwork, hregistered]
    exact hnested
  rw [Server.serveRequest]
  split
  · exact hrefused _
  · exact hrefused _
  · simp only [enterRealm, h.isolated]
    refine h.goOn hin h.isolated.symm rfl rfl (setPhase_inFlight hin _)
      (fun _ => ⟨hwork, hregistered⟩) h.few ?_
    show Crossing.Nested (s.realms ++ [.enter (.request s.requests)])
      (([s.requests] ++ s.work ++ s.registered).map .request ++ [.server])
    rw [hwork, hregistered]
    exact hnested.enter _

/-- A request whose evaluation is over. -/
theorem Sequential.evaluated (h : s.Sequential) (hin : s.inFlight = [(c, .evaluating q)]) :
    ((s.exitRealm q).setPhase c (.responding 500)).Sequential ∧
      (s.setPhase c (.dispatching q)).Sequential := by
  obtain ⟨hwork, hregistered⟩ := h.busy c (.evaluating q) (by simp [hin]) (by rintro status ⟨⟩)
  have hnested : Crossing.Nested s.realms [.request q, .server] :=
    h.nested_busy hin hwork hregistered
  constructor
  · simp only [exitRealm, h.isolated]
    refine h.goOn hin h.isolated.symm rfl rfl (setPhase_inFlight hin _)
      (fun hnot => absurd rfl (hnot 500)) h.few ?_
    show Crossing.Nested (s.realms ++ [.exit (.request q)])
      (([] ++ s.work ++ s.registered).map .request ++ [.server])
    rw [hwork, hregistered]
    exact hnested.exit
  · refine h.goOn hin rfl rfl rfl (setPhase_inFlight hin _) (fun _ => ⟨hwork, hregistered⟩) h.few ?_
    show Crossing.Nested s.realms (([q] ++ s.work ++ s.registered).map .request ++ [.server])
    rw [hwork, hregistered]
    exact hnested

/-- A request that is dispatched hands its realm to the work it registers. -/
theorem Sequential.dispatched (h : s.Sequential) (hin : s.inFlight = [(c, .dispatching q)])
    (status : ℕ) :
    ({ s with registered := s.registered ++ [q] }.setPhase c (.responding status)).Sequential := by
  obtain ⟨hwork, hregistered⟩ := h.busy c (.dispatching q) (by simp [hin]) (by rintro status ⟨⟩)
  have hnested : Crossing.Nested s.realms [.request q, .server] :=
    h.nested_busy hin hwork hregistered
  refine h.goOn hin rfl rfl rfl (setPhase_inFlight hin _) (fun hnot => absurd rfl (hnot status))
    ?_ ?_
  · show s.work.length + (s.registered ++ [q]).length ≤ 1
    rw [hwork, hregistered]
    exact le_rfl
  · show Crossing.Nested s.realms
      (([] ++ s.work ++ (s.registered ++ [q])).map .request ++ [.server])
    rw [hwork, hregistered]
    exact hnested

/-- **A connection ends**, wherever its request is. -/
theorem Sequential.closed (h : s.Sequential) (hin : s.inFlight = [(c, phase)]) :
    (match phase.request with
      | some q => (s.exitRealm q).connectionDone c
      | none => s.connectionDone c).Sequential := by
  cases hq : phase.request with
  | none =>
    have hnested := h.nested
    rw [holders_eq hin, hq] at hnested
    exact h.toSerial.connectionDone hin rfl rfl rfl rfl rfl hnested
  | some q =>
    have hne (status : ℕ) : phase ≠ .responding status := by
      rintro rfl
      cases hq
    obtain ⟨hwork, hregistered⟩ := h.busy c phase (by simp [hin]) hne
    have hnested := h.nested_busy hin hwork hregistered
    rw [hq] at hnested
    simp only [exitRealm, h.isolated]
    refine h.toSerial.connectionDone hin h.isolated.symm rfl rfl rfl rfl ?_
    rw [hwork, hregistered]
    exact Crossing.Nested.exit hnested

theorem Sequential.pollConnection (h : s.Sequential) (c : ℕ) (progress : Progress) :
    (s.pollConnection c progress).Sequential := by
  rw [Server.pollConnection.eq_def]
  split
  next => exact h
  next hlookup => exact h.serveRequest (h.inFlight_eq hlookup) _
  next q hlookup => exact (h.evaluated (h.inFlight_eq hlookup)).1
  next q hlookup => exact (h.evaluated (h.inFlight_eq hlookup)).2
  next q status hlookup => exact h.dispatched (h.inFlight_eq hlookup) status
  next status hlookup =>
    have hkeepAlive : s.mode.keepAlive = false := by
      rw [h.isolated]
      rfl
    rw [hkeepAlive]
    exact h.closed (h.inFlight_eq hlookup)
  next phase _ hlookup => exact h.closed (h.inFlight_eq hlookup)
  next => exact h

/-- The work that was registered is collected. -/
theorem Sequential.collect (h : s.Sequential) :
    Sequential { s with work := s.work ++ s.registered, registered := [] } := by
  refine ⟨⟨h.isolated, h.running, h.one, fun c phase hmem hphase => ?_, ?_, ?_⟩, fun hfree => ?_⟩
  · obtain ⟨hwork, hregistered⟩ := h.busy c phase hmem hphase
    exact ⟨List.append_eq_nil_iff.mpr ⟨hwork, hregistered⟩, rfl⟩
  · have := h.few
    simp only [List.length_append, List.length_nil]
    omega
  · have hnested := h.nested
    rw [holders, List.append_assoc] at hnested
    simpa only [holders, List.append_nil] using hnested
  · obtain ⟨hin, hwork, hregistered⟩ := h.free hfree
    exact ⟨hin, List.append_eq_nil_iff.mpr ⟨hwork, hregistered⟩, rfl⟩

/-- While there is work left, no request is on its way. -/
theorem Serial.request_none (h : s.Serial) (hwork : s.work ≠ []) :
    s.inFlight.filterMap (fun x => x.2.request) = [] := by
  rw [List.filterMap_eq_nil_iff]
  rintro ⟨c, phase⟩ hmem
  cases hphase : phase with
  | responding status => rfl
  | _ =>
    refine absurd (h.busy c phase hmem ?_).1 hwork
    rw [hphase]
    rintro status ⟨⟩

/-- **The work is polled**; the realm of what is over is exited. -/
theorem Sequential.pollWork (h : s.Sequential) (done : Option ℕ) :
    (s.pollWork done).Sequential := by
  have h' := h.collect
  cases done with
  | none => exact h'
  | some q =>
    simp only [Server.pollWork]
    split_ifs with hq
    · have hwork : s.work ++ s.registered = [q] := by
        have hlength := h'.few
        simp only [List.length_nil, Nat.add_zero] at hlength
        rcases hlist : s.work ++ s.registered with _ | ⟨q', rest⟩
        · rw [hlist] at hq
          cases hq
        · rw [hlist, List.length_cons] at hlength
          obtain rfl := List.length_eq_zero_iff.mp (Nat.le_zero.mp (Nat.le_of_succ_le_succ hlength))
          rw [hlist, List.mem_singleton] at hq
          rw [hq]
      have hnone := h'.toSerial.request_none (by rw [hwork]; simp)
      have hnested := h'.nested
      simp only [holders, hnone, hwork, List.append_nil, List.nil_append] at hnested
      simp only [exitRealm, h.isolated]
      refine Serial.iterate ⟨rfl, h.running, h.one, fun c phase hmem hphase => ?_, ?_, ?_⟩
      · exact absurd (h'.busy c phase hmem hphase).1 (by rw [hwork]; simp)
      · rw [hwork]
        simp
      · simp only [holders, hnone, hwork, List.erase_cons_head]
        exact Crossing.Nested.exit hnested
    · exact h'

/-- **A connection is accepted** only where nothing is left of the last one. -/
theorem Sequential.accept (h : s.Sequential) (hfree : s.atCapacity = false) :
    (iterate { s with
      inFlight := s.inFlight ++ [(s.accepted, .reading)]
      accepted := s.accepted + 1 }).Sequential := by
  obtain ⟨hin, hwork, hregistered⟩ := h.free hfree
  refine Serial.iterate ⟨h.isolated, h.running, ?_, fun _ _ _ _ => ⟨hwork, hregistered⟩, h.few, ?_⟩
  · rw [hin]
    exact le_rfl
  · have hnested := h.nested
    rw [holders, hin] at hnested
    rw [holders, hin]
    exact hnested

/-- Everything is dropped on the way out. -/
theorem Sequential.shutdown (h : s.Sequential) :
    s.shutdown.holders = [] ∧ Crossing.Nested s.shutdown.realms [] := by
  refine ⟨rfl, ?_⟩
  show Crossing.Nested (s.realms ++ (_ ++ [.server]).map .exit) []
  rw [h.isolated]
  refine Crossing.Nested.exits ?_
  rw [List.append_nil]
  exact h.nested

end Isolated

end Server

/-! ### The law of isolated mode -/

/-- A server in isolated mode, or one that has returned. -/
def Server.Isolated (s : Server) : Prop :=
  (s.stopped = false ∧ s.Sequential) ∨
    (s.stopped = true ∧ s.inFlight = [] ∧ s.holders = [] ∧ Crossing.Nested s.realms [])

theorem Server.Isolated.step {s : Server} (h : s.Isolated) (e : ServerEvent) :
    (s.step e).Isolated := by
  obtain ⟨hrunning, h⟩ | ⟨hstopped, hrest⟩ := h
  · rw [Server.step.eq_def, if_neg (by simp [hrunning])]
    cases e with
    | shutdown => exact .inr ⟨rfl, rfl, h.shutdown⟩
    | accept failed =>
      simp only
      split_ifs with hfull hfailed
      · exact .inl ⟨hrunning, h⟩
      · exact .inl ⟨hrunning, h.toSerial.iterate⟩
      · exact .inl ⟨hrunning, h.accept (Bool.eq_false_of_not_eq_true hfull)⟩
    | pollWork done => exact .inl ⟨(h.pollWork done).running, h.pollWork done⟩
    | pollConnection c progress =>
      exact .inl ⟨(h.pollConnection c progress).running, h.pollConnection c progress⟩
  · rw [Server.step.eq_def, if_pos hstopped]
    exact .inr ⟨hstopped, hrest⟩

theorem isolated_initial (maxConnections : ℕ) (limits : ServeLimits) :
    (Server.initial .isolated maxConnections limits).Isolated := by
  refine .inl ⟨rfl, Server.Serial.iterate ⟨rfl, rfl, Nat.zero_le 1, ?_, Nat.zero_le 1, rfl⟩⟩
  rintro c phase ⟨⟩

theorem Server.Serial.holders_length {s : Server} (h : s.Serial) : s.holders.length ≤ 1 := by
  have hone := h.one
  have hfew := h.few
  rcases hin : s.inFlight with _ | ⟨⟨c, phase⟩, rest⟩
  · rw [Server.holders, hin]
    simpa using hfew
  · rw [hin, List.length_cons] at hone
    obtain rfl := List.length_eq_zero_iff.mp (Nat.le_zero.mp (Nat.le_of_succ_le_succ hone))
    rw [Server.holders_eq hin]
    cases hphase : phase with
    | responding status => simpa [ConnectionPhase.request] using hfew
    | _ =>
      obtain ⟨hwork, hregistered⟩ := h.busy c phase (by simp [hin]) (by
        rw [hphase]
        rintro status ⟨⟩)
      simp [ConnectionPhase.request, hwork, hregistered]

/-- **The law of isolated mode**, over all runs: a connection is accepted where nothing is left of
the requests before, at most one request has its realm entered, and realms are exited in the order
opposite to that in which they were entered. -/
theorem isolated_sequential (maxConnections : ℕ) (limits : ServeLimits) (s : Server)
    (hrun : serverMachine.Run (.initial .isolated maxConnections limits) s) :
    (∀ e, (s.step e).accepted ≠ s.accepted →
      s.inFlight = [] ∧ s.work = [] ∧ s.registered = []) ∧
    s.inFlight.length ≤ 1 ∧ s.holders.length ≤ 1 ∧
    Crossing.Nested s.realms
      (s.holders.map .request ++ if s.stopped then [] else [.server]) := by
  have h : s.Isolated := hrun.inv_of_sat (E := fun _ => True) (isolated_initial ..)
    fun s e hs _ => hs.step e
  obtain ⟨hrunning, h⟩ | ⟨hstopped, hin, hholders, hnested⟩ := h
  · refine ⟨fun e he => h.free (Server.accepted_step he).2, h.one, h.holders_length, ?_⟩
    rw [hrunning]
    exact h.nested
  · refine ⟨fun e he => ?_, by simp [hin], by simp [hholders], ?_⟩
    · have := (Server.accepted_step he).1
      rw [hstopped] at this
      cases this
    · rw [hholders, hstopped]
      exact hnested

/-- A client that disconnects while its script is evaluated, and a request whose work outlives its
connection. -/
theorem isolated_sequential_disconnected :
    ∃ s, serverMachine.Run (.initial .isolated 64 ⟨1024, 0, 0⟩) s ∧
      s.holders.length ≤ 1 ∧
      (s.realms == [.enter .server, .enter (.request 0), .exit (.request 0), .enter (.request 1)] &&
        s.inFlight == [] && s.work == [1] && s.accepted == 2) = true := by
  obtain ⟨s, hrun, hs⟩ := Machine.exists_run_of_exec (M := serverMachine)
    (s := .initial .isolated 64 ⟨1024, 0, 0⟩)
    [.accept false, .accept false, .pollConnection 0 (.head ⟨1, none⟩), .pollConnection 0 .closed,
      .accept false, .pollConnection 1 (.head ⟨1, some (some 7)⟩),
      .pollConnection 1 (.evaluated false), .pollConnection 1 (.dispatched 200),
      .pollConnection 1 .responded, .accept false, .pollWork none]
    (P := fun s => s.realms == [.enter .server, .enter (.request 0), .exit (.request 0),
      .enter (.request 1)] && s.inFlight == [] && s.work == [1] && s.accepted == 2)
    (by decide)
  exact ⟨s, hrun, (isolated_sequential _ _ s hrun).2.2.1, hs⟩

/-! ### Any mode -/

/-- The capacity that was computed is right, or too low. -/
structure Server.Bounded (s : Server) : Prop where
  le : s.inFlight.length ≤ s.maxInFlight
  room : s.stopped = false → s.atCapacity = false → s.inFlight.length < s.maxInFlight

section Bounded

variable {s s' : Server}

theorem Server.Bounded.iterate (h : s.inFlight.length ≤ s.maxInFlight) : s.iterate.Bounded where
  le := h
  room := by
    intro _ hroom
    simp only [Server.iterate, Bool.or_eq_false_iff, decide_eq_false_iff_not, Nat.not_le] at hroom
    exact hroom.1

theorem Server.Narrower.maxInFlight (h : Narrower s s') : s'.maxInFlight = s.maxInFlight := by
  rw [Server.maxInFlight, Server.maxInFlight, h.mode, h.maxConnections]

theorem Server.Bounded.narrower (h : s.Bounded) (hs' : Narrower s s') : s'.Bounded where
  le := hs'.inFlight.trans (h.le.trans_eq hs'.maxInFlight.symm)
  room := by
    intro hrunning hroom
    rw [hs'.stopped] at hrunning
    rw [hs'.atCapacity] at hroom
    rw [hs'.maxInFlight]
    exact lt_of_le_of_lt hs'.inFlight (h.room hrunning hroom)

theorem Server.Bounded.step (h : s.Bounded) (e : ServerEvent) : (s.step e).Bounded := by
  rw [Server.step.eq_def]
  by_cases hstopped : s.stopped = true
  · rw [if_pos hstopped]
    exact h
  · rw [if_neg hstopped]
    cases e with
    | shutdown => exact ⟨Nat.zero_le _, by rintro ⟨⟩⟩
    | accept failed =>
      simp only
      split_ifs with hfull hfailed
      · exact h
      · exact .iterate h.le
      · refine .iterate ?_
        rw [List.length_append]
        exact h.room (Bool.eq_false_of_not_eq_true hstopped) (Bool.eq_false_of_not_eq_true hfull)
    | pollWork done =>
      show (s.pollWork done).Bounded
      obtain ⟨s', hs', heq | heq⟩ := s.pollWork_narrower done
      · rw [heq]
        exact h.narrower hs'
      · rw [heq]
        exact .iterate (h.narrower hs').le
    | pollConnection c progress =>
      show (s.pollConnection c progress).Bounded
      obtain ⟨s', hs', heq | heq⟩ := s.pollConnection_narrower c progress
      · rw [heq]
        exact h.narrower hs'
      · rw [heq]
        exact .iterate (h.narrower hs').le

end Bounded

/-- **No more connections than there may be** are in flight, in either mode. -/
theorem inFlight_le (mode : RequestHandlingMode) (maxConnections : ℕ) (limits : ServeLimits)
    (s : Server) (hrun : serverMachine.Run (.initial mode maxConnections limits) s) :
    s.inFlight.length ≤ s.maxInFlight :=
  (hrun.inv_of_sat (E := fun _ => True) (Server.Bounded.iterate (Nat.zero_le _))
    fun _ e hs _ => Server.Bounded.step hs e).le

end Serve
