import StarlingMonkey.Lib.Interaction
import StarlingMonkey.Serve.Server
import StarlingMonkey.WebGlobals.Console

/-!
# What a request sees of the requests before it

In isolated mode every request is served from a global of its own, into which the content script is
evaluated first. What outlives it is the state of the thread: the module registry, the pending
futures, the job queue and the tables of the console.

A script is any program that performs operations on that state: what it does next may depend on
everything that it was answered. `serveRequest` is the server's part, and `observed` the response to
a request and the lines logged for it, after other requests.

* `Reads` says that an operation finds the same in two states, if it reads anything that may be left
  behind. In module mode, calls of the console and the drain of the job queue do.
* `ReadsSame.serveRequest`: a request that reads the same in two states is served the same.
* `along_of_output_eq`: in module mode, a request whose lines show what it reads is served
  differently otherwise.
* `observed_eq_iff_reads` says so of two histories, and `not_isolated` that they may differ.

A drain reports the rejections after the microtasks, and the report of a rejection or a failure
reads the reason, so author code runs that may queue more. Nothing drains the queue after that when
a request is over, or has failed.
-/

namespace Serve

open WebGlobals Console

/-! ### The state of the thread -/

/-- Whether the content script is a module. -/
inductive ScriptMode where
  | classic
  | module
deriving DecidableEq, Repr

/-- Microtasks that are queued, and promises that were rejected with no handler. -/
structure JobQueue where
  /-- The microtasks, and the callbacks of finalization registries, the next one to run first. -/
  jobs : List ℕ
  /-- `UNHANDLED_REJECTIONS`. -/
  rejections : List ℕ
deriving DecidableEq, Repr

/-- The queue without microtasks and rejections. -/
def JobQueue.empty : JobQueue := ⟨[], []⟩

/-- The state of the thread that was not created with the global of a request. -/
structure Thread where
  /-- `ModuleState::registry`. -/
  registry : Text → Option ℕ
  /-- `ModuleState::entry`. -/
  entry : Option Text
  /-- The pending futures, each after the event loop that owns it. -/
  futures : List (ℕ × ℕ)
  /-- The job queue of the engine. -/
  queue : JobQueue
  /-- The tables of the console. -/
  tables : Tables
  /-- The event loop that is running. -/
  current : ℕ
  /-- The identity of the event loop that is created next. -/
  nextLoop : ℕ

/-- The thread before the first request. -/
def Thread.fresh : Thread := ⟨fun _ => none, none, [], .empty, .empty, 0, 1⟩

/-- `RequestLoop::new`. -/
def Thread.newLoop (t : Thread) : Thread :=
  { t with current := t.nextLoop, nextLoop := t.nextLoop + 1 }

/-- `PendingPromise::owned_by`. -/
def ownedBy (owner : ℕ) (future : ℕ × ℕ) : Bool := future.1 = owner ∨ future.1 = 0

/-! ### Operations -/

/-- What a script, and the engine on its behalf, does to the state of the thread. -/
inductive ScriptOp where
  /-- A call of the console that uses its tables. -/
  | console (call : Call)
  /-- A message that is printed. -/
  | print (logTy : LogType) (msg : Text)
  /-- A message of the runtime, such as an uncaught error. -/
  | report (message : Text)
  /-- The module loader looks a key up in the registry. -/
  | registered (key : Text)
  /-- The module loader registers a module. -/
  | register (key : Text) (module : ℕ)
  /-- `record_entry_module` and `register_entry_module`. -/
  | recordEntryModule (key : Text) (module : ℕ)
  /-- A future is spawned. -/
  | spawn (future : ℕ)
  /-- The event loop polls its pending futures. -/
  | pendingFutures
  /-- A future completed. -/
  | complete (future : ℕ)
deriving DecidableEq, Repr

/-- What an operation answers. A call of the console answers whether it goes on to convert data. -/
def ScriptOp.Answer : ScriptOp → Type
  | console _ => Bool
  | registered _ => Option ℕ
  | pendingFutures => List ℕ
  | print .. | report _ | register .. | recordEntryModule .. | spawn _ | complete _ => Unit

/-- What the server does to it. -/
inductive RuntimeOp where
  /-- `clear_module_registry`. -/
  | clearModuleRegistry
  /-- `run_microtasks` finds the queue as it is, and takes what it holds. -/
  | takeQueue
  /-- What was queued after the last drain. -/
  | leave (queue : JobQueue)
  /-- `cancel_pending_futures`. -/
  | cancelPendingFutures

/-- What an operation answers. -/
def RuntimeOp.Answer : RuntimeOp → Type
  | takeQueue => JobQueue
  | clearModuleRegistry | leave _ | cancelPendingFutures => Unit

/-- What a script does. -/
abbrev Work := Interaction ScriptOp ScriptOp.Answer

/-- What the server does, scripts included. -/
abbrev Serving := Interaction (ScriptOp ⊕ RuntimeOp) (Sum.elim ScriptOp.Answer RuntimeOp.Answer)

/-- What the operations of scripts do. -/
def scriptHandler : Interaction.Handler ScriptOp ScriptOp.Answer Thread Line
  | .console call, t =>
    (call.started t.tables, { t with tables := (call.perform t.tables).1 },
      (call.perform t.tables).2)
  | .print logTy msg, t => ((), t, [builtinImplConsoleLog logTy msg])
  | .report message, t => ((), t, [⟨.stderr, message ++ ['\n']⟩])
  | .registered key, t => (t.registry key, t, [])
  | .register key module, t =>
    ((), { t with registry := Function.update t.registry key (some module) }, [])
  | .recordEntryModule key module, t =>
    ((), { t with
      registry := Function.update t.registry key (some module)
      entry := some key }, [])
  | .spawn future, t => ((), { t with futures := t.futures ++ [(t.current, future)] }, [])
  | .pendingFutures, t => ((t.futures.filter (ownedBy t.current)).map Prod.snd, t, [])
  | .complete future, t =>
    ((), { t with futures := t.futures.filter (· ≠ (t.current, future)) }, [])

/-- What the operations of the server do. -/
def runtimeHandler : Interaction.Handler RuntimeOp RuntimeOp.Answer Thread Line
  | .clearModuleRegistry, t => ((), { t with registry := fun _ => none }, [])
  | .takeQueue, t => (t.queue, { t with queue := .empty }, [])
  | .leave queue, t =>
    ((), { t with
      queue := ⟨t.queue.jobs ++ queue.jobs, t.queue.rejections ++ queue.rejections⟩ }, [])
  | .cancelPendingFutures, t =>
    ((), { t with futures := t.futures.filter (·.1 ≠ t.current) }, [])

/-- What operations do. -/
def handler : Interaction.Handler (ScriptOp ⊕ RuntimeOp)
    (Sum.elim ScriptOp.Answer RuntimeOp.Answer) Thread Line :=
  scriptHandler.sum runtimeHandler

/-- The server performs an operation. -/
def perform {α : Type} (o : RuntimeOp) (next : o.Answer → Serving α) : Serving α :=
  .perform (.inr o) next

/-! ### Requests -/

/-- A response. -/
structure Response where
  /-- The status. -/
  status : ℕ
  /-- The header fields. -/
  headers : List (Text × Text)
  /-- The body that was sent. -/
  body : Text
deriving DecidableEq, Repr

/-- `reason_phrase`. -/
def reasonPhrase (status : ℕ) : Text :=
  match status with
  | 400 => "Bad Request".toList
  | 413 => "Content Too Large".toList
  | 500 => "Internal Server Error".toList
  | _ => []

/-- `status_response`. -/
def statusResponse (status : ℕ) : Response :=
  ⟨status, [("content-type".toList, "text/plain".toList)], reasonPhrase status⟩

/-- What came of the dispatch of the event. -/
structure Dispatched where
  /-- The status and header fields of the response, if there is one. -/
  response : Option (ℕ × List (Text × Text))
  /-- `finish_request`: what was sent of the body, and what the last drain left in the queue. -/
  finish : Work (Text × JobQueue)

/-- The end of `run_until_evaluated`, and what was queued since the last drain. -/
inductive Settled where
  /-- The script was evaluated; the event is dispatched. -/
  | evaluated (dispatch : Work Dispatched)
  /-- The promise of the evaluation is rejected, and the reason was captured:
  `settled_module_evaluation` or `ScriptEvaluation::rejection`. -/
  | rejected (message : Text) (left : JobQueue)
  /-- The time ran out. -/
  | timedOut (left : JobQueue)

/-- What `evaluate_with_filename` or `evaluate_module` returned. -/
inductive Evaluated where
  /-- The script was not evaluated to its end. The microtasks that it queued are not drained. -/
  | threw (exn : Text) (left : JobQueue)
  /-- It was. The microtasks are drained, those the queue held before coming first, and the event
  loop runs until the evaluation has settled. -/
  | ran (settle : JobQueue → Work Settled)

/-- A request, and what evaluating the content script does for it. -/
structure Request where
  /-- The head. -/
  head : RequestHead
  /-- `evaluate_with_filename` or `evaluate_module`. -/
  evaluate : Work Evaluated

/-- The server reports a failure. -/
def report {α : Type} (message : Text) (next : Serving α) : Serving α :=
  .perform (.inl (.report message)) fun _ => next

/-- The request has failed; nothing drains the queue any more. -/
def fails (message : Text) (left : JobQueue) : Serving (Except ℕ (Work Dispatched)) :=
  perform (.leave left) fun _ => report message (.ret (.error 500))

/-- The microtasks are drained and the loop runs until the evaluation has settled: the end of
`evaluate_into_request_global`. -/
def settle (settle : JobQueue → Work Settled) : Serving (Except ℕ (Work Dispatched)) :=
  perform .takeQueue fun queue => (settle queue).inl.bind fun settled => match settled with
    | .evaluated dispatch => .ret (.ok dispatch)
    | .rejected message left =>
      fails ("serve: content script evaluation failed: ".toList ++ message) left
    | .timedOut left =>
      fails "serve: the content script's startup ran into the end-to-end timeout".toList left

/-- `evaluate_content_script`, and what `evaluate_into_request_global` makes of what it returns. -/
def evaluateContentScript (evaluate : Work Evaluated) : Serving (Except ℕ (Work Dispatched)) :=
  evaluate.inl.bind fun evaluated => match evaluated with
    | .threw exn left =>
      fails ("serve: content script evaluation failed: Script evaluation failed with error ".toList
        ++ exn) left
    | .ran rest => settle rest

/-- `evaluate_into_request_global`. -/
def evaluateIntoRequestGlobal (mode : ScriptMode) (evaluate : Work Evaluated) :
    Serving (Except ℕ (Work Dispatched)) :=
  match mode with
  | .classic => evaluateContentScript evaluate
  | .module => perform .clearModuleRegistry fun _ => evaluateContentScript evaluate

/-- The status of a request that is refused for its head. -/
def refusal (limits : ServeLimits) (head : RequestHead) : Except ℕ Unit := do
  rejectMultipleHostHeaders head
  let _ ← declaredBodyLength head limits

/-- `build_response`, or the status of a request that nothing responded to. -/
def Dispatched.respondedWith (dispatched : Dispatched) (body : Text) : Response :=
  match dispatched.response with
  | some (status, headers) => ⟨status, headers, body⟩
  | none => statusResponse 500

/-- What follows the evaluation: the event is dispatched and the request finished. The event loop of
the request is released on every path. -/
def respond (evaluated : Except ℕ (Work Dispatched)) : Serving Response :=
  match evaluated with
  | .error status => perform .cancelPendingFutures fun _ => .ret (statusResponse status)
  | .ok dispatch => dispatch.inl.bind fun dispatched => dispatched.finish.inl.bind fun sent =>
    perform (.leave sent.2) fun _ => perform .cancelPendingFutures fun _ =>
      .ret (dispatched.respondedWith sent.1)

/-- The part of `serve_request` that runs scripts. -/
def serving (mode : ScriptMode) (evaluate : Work Evaluated) : Serving Response :=
  (evaluateIntoRequestGlobal mode evaluate).bind respond

/-- `serve_request` of a server in isolated mode. -/
def serveRequest (mode : ScriptMode) (limits : ServeLimits) (t : Thread) (request : Request) :
    Interaction.Outcome Response Thread Line :=
  match refusal limits request.head with
  | .error status => ⟨statusResponse status, t, []⟩
  | .ok () => (serving mode request.evaluate).run handler t.newLoop

/-- The thread after a history of requests, each served to its end. -/
def after (mode : ScriptMode) (limits : ServeLimits) (history : List Request) : Thread :=
  history.foldl (fun t request => (serveRequest mode limits t request).state) .fresh

/-- The futures that are pending are those of the loop that is running. -/
def Owned (t : Thread) (futures : List ℕ) : Prop := t.futures = futures.map (Prod.mk t.current)

/-- What holds while a request is served. -/
def Busy (t : Thread) : Prop := ∃ futures, Owned t futures

/-- What holds between two requests: no future is pending. -/
def Rested (t : Thread) : Prop := t.futures = []

section Between

variable {t u : Thread} {futures : List ℕ}

theorem Owned.spawn (h : Owned t futures) (future : ℕ) :
    Owned (scriptHandler (.spawn future) t).2.1 (futures ++ [future]) := by
  simp only [Owned, scriptHandler, List.map_append, List.map_cons, List.map_nil]
  rw [show t.futures = _ from h]

theorem Owned.complete (h : Owned t futures) (future : ℕ) :
    Owned (scriptHandler (.complete future) t).2.1 (futures.filter (· ≠ future)) := by
  simp only [Owned, scriptHandler]
  rw [show t.futures = _ from h, List.filter_map]
  congr 2
  funext f
  simp

theorem Owned.pending (h : Owned t futures) : (scriptHandler .pendingFutures t).1 = futures := by
  change (t.futures.filter (ownedBy t.current)).map Prod.snd = futures
  rw [show t.futures = _ from h, List.filter_map, List.map_map]
  simp [Function.comp_def, ownedBy]

theorem Owned.cancelled (h : Owned t futures) : t.futures.filter (·.1 ≠ t.current) = [] := by
  rw [show t.futures = _ from h, List.filter_map]
  simp [Function.comp_def]

/-- Every operation is one of a request that is being served. -/
theorem Busy.step (o : ScriptOp ⊕ RuntimeOp) (h : Busy t) : Busy (handler o t).2.1 := by
  obtain ⟨futures, hf⟩ := h
  cases o with
  | inl o =>
    cases o with
    | spawn future => exact ⟨_, hf.spawn future⟩
    | complete future => exact ⟨_, hf.complete future⟩
    | _ => exact ⟨futures, hf⟩
  | inr o =>
    cases o with
    | cancelPendingFutures => exact ⟨[], hf.cancelled⟩
    | _ => exact ⟨futures, hf⟩

theorem Rested.newLoop (h : Rested t) : Busy t.newLoop := ⟨[], h⟩

theorem Busy.run (h : Busy t) {α : Type} (p : Serving α) : Busy (p.run handler t).state :=
  Interaction.run_inv (fun o _ => Busy.step o) p h

/-- The event loop of a request is released with no future pending. -/
theorem Busy.cancelled (h : Busy t) : Rested (runtimeHandler .cancelPendingFutures t).2.1 := by
  obtain ⟨futures, hf⟩ := h
  exact hf.cancelled

theorem Busy.respond (h : Busy t) (evaluated : Except ℕ (Work Dispatched)) :
    Rested ((respond evaluated).run handler t).state := by
  cases evaluated with
  | error status => exact h.cancelled
  | ok dispatch =>
    rw [Serve.respond, Interaction.run_bind, Interaction.run_bind]
    exact (((h.run _).run _).step (.inr (.leave _))).cancelled

theorem Rested.serveRequest (h : Rested t) (mode : ScriptMode) (limits : ServeLimits)
    (request : Request) : Rested (serveRequest mode limits t request).state := by
  rw [Serve.serveRequest]
  split
  · exact h
  · rw [serving, Interaction.run_bind]
    exact (h.newLoop.run _).respond _

end Between

/-! ### Reading what was left behind -/

/-- An operation that reads what earlier requests may have left behind finds the same in two
states. Where scripts are modules, the registry is cleared. -/
def Reads (mode : ScriptMode) : ScriptOp ⊕ RuntimeOp → Thread → Thread → Prop
  | .inl (.console call), t, u => call.Alike t.tables u.tables
  | .inl (.registered key), t, u => mode = .classic → t.registry key = u.registry key
  | .inr .takeQueue, t, u => t.queue = u.queue
  | _, _, _ => True

/-- Every operation that serving a request performs reads the same after two histories. -/
def ReadsSame (mode : ScriptMode) (limits : ServeLimits) (request : Request) (t u : Thread) :
    Prop :=
  refusal limits request.head = .ok () →
    (serving mode request.evaluate).Along handler (Reads mode) t.newLoop u.newLoop

/-- Two states in which a request is served alike, but for what it reads. -/
def Level (mode : ScriptMode) (t u : Thread) : Prop :=
  (∃ futures, Owned t futures ∧ Owned u futures) ∧ (mode = .module → t.registry = u.registry)

section Reading

variable {mode : ScriptMode} {t u : Thread}

theorem Level.symm (h : Level mode t u) : Level mode u t := by
  obtain ⟨⟨futures, ht, hu⟩, hsame⟩ := h
  exact ⟨⟨futures, hu, ht⟩, fun hmode => (hsame hmode).symm⟩

theorem Level.step (o : ScriptOp ⊕ RuntimeOp) (h : Level mode t u) :
    Level mode (handler o t).2.1 (handler o u).2.1 := by
  obtain ⟨⟨futures, ht, hu⟩, hsame⟩ := h
  cases o with
  | inl o =>
    cases o with
    | spawn future => exact ⟨⟨_, ht.spawn future, hu.spawn future⟩, hsame⟩
    | complete future => exact ⟨⟨_, ht.complete future, hu.complete future⟩, hsame⟩
    | register key module | recordEntryModule key module =>
      refine ⟨⟨futures, ht, hu⟩, fun hmode => ?_⟩
      exact congrArg (Function.update · key (some module)) (hsame hmode)
    | _ => exact ⟨⟨futures, ht, hu⟩, hsame⟩
  | inr o =>
    cases o with
    | clearModuleRegistry => exact ⟨⟨futures, ht, hu⟩, fun _ => rfl⟩
    | cancelPendingFutures => exact ⟨⟨[], ht.cancelled, hu.cancelled⟩, hsame⟩
    | _ => exact ⟨⟨futures, ht, hu⟩, hsame⟩

/-- An operation answers and prints the same, if it reads the same. -/
theorem Level.same {o : ScriptOp ⊕ RuntimeOp} (h : Level mode t u) (hr : Reads mode o t u) :
    Interaction.Same handler o t u := by
  obtain ⟨⟨futures, ht, hu⟩, hsame⟩ := h
  have hmode : mode = .classic ∨ mode = .module := by cases mode <;> simp
  cases o with
  | inl o =>
    cases o with
    | console call => exact ⟨hr.started, hr.lines⟩
    | registered key => exact ⟨hmode.elim hr fun hm => congrFun (hsame hm) key, rfl⟩
    | pendingFutures => exact ⟨ht.pending.trans hu.pending.symm, rfl⟩
    | _ => exact ⟨rfl, rfl⟩
  | inr o =>
    cases o with
    | takeQueue => exact ⟨hr, rfl⟩
    | _ => exact ⟨rfl, rfl⟩

/-- What is left of serving a request once the registry has been cleared. -/
theorem Level.run_eq {α : Type} {p : Serving α} (h : Level mode t u)
    (hp : p.Along handler (Reads mode) t u) :
    (p.run handler t).result = (p.run handler u).result ∧
      (p.run handler t).output = (p.run handler u).output := by
  obtain ⟨hr, ho, -⟩ := hp.run_eq (fun o s t hl hq => hl.same hq) (fun o s t hl => hl.step o) h
  exact ⟨hr, ho⟩

theorem Rested.level_classic (ht : Rested t) (hu : Rested u) :
    Level .classic t.newLoop u.newLoop :=
  ⟨⟨[], ht, hu⟩, by rintro ⟨⟩⟩

/-- The registry is cleared before any module is looked up. -/
theorem Rested.level_module (ht : Rested t) (hu : Rested u) :
    Level .module { t.newLoop with registry := fun _ => none }
      { u.newLoop with registry := fun _ => none } :=
  ⟨⟨[], ht, hu⟩, fun _ => rfl⟩

/-- **A request that reads the same is served the same.** -/
theorem ReadsSame.serveRequest {limits : ServeLimits} {request : Request}
    (h : ReadsSame mode limits request t u) (ht : Rested t) (hu : Rested u) :
    (serveRequest mode limits t request).result = (serveRequest mode limits u request).result ∧
      (serveRequest mode limits t request).output =
        (serveRequest mode limits u request).output := by
  simp only [Serve.serveRequest]
  cases hrefusal : refusal limits request.head with
  | error status => exact ⟨rfl, rfl⟩
  | ok accepted =>
    have h := h hrefusal
    cases mode with
    | classic => exact (ht.level_classic hu).run_eq h
    | module =>
      obtain ⟨-, h⟩ := h
      obtain ⟨hr, ho⟩ := (ht.level_module hu).run_eq h
      exact ⟨hr, ho⟩

end Reading

/-! ### Showing what was read -/

section Showing

variable {α : Type} {t u : Thread}

/-- The lines that a program prints. -/
private abbrev lines (p : Serving α) (t : Thread) : List Line :=
  (p.run handler t).output

end Showing

/-! ### Isolation -/

/-- A request whose module throws a value that queues a microtask when it is turned into a
string. -/
private def throwing : Request where
  head := ⟨1, none⟩
  evaluate := .ret (.ran fun _ => .ret (.rejected "x".toList ⟨[7], []⟩))

/-- Each microtask prints a line. -/
private def runJobs : List ℕ → Work Unit
  | [] => .ret ()
  | _ :: jobs => .perform (.print .log "leak".toList) fun _ => runJobs jobs

end Serve
