import QrEdgeGateway.Dispatcher
import QrEdgeGateway.JobRunner
import QrEdgeGateway.Lib.Table

/-!
# The service

The REST handlers, the dispatcher's worker and the job workers run concurrently over one core,
one job store and one `JobRunner`. Crow answers requests on several threads, so any number of
handlers are in flight at once. Every access to shared data is one step: a queue operation, a
load or store of `running_`, a call on the handle `worker_`, a store operation.

A request arrives validated: bodies that fail validation are one request, answered 400. The
endpoints `/health` and `/status` only read and are left out. Failure to create a thread and
exhausted memory are not modelled.
-/

namespace QrEdgeGateway

/-- Who owns a promise: every handler and every job submits at most one task. -/
inductive Submitter where
  /-- A REST handler. -/
  | handler (h : Nat)
  /-- A job worker. -/
  | job (k : Nat)
  deriving DecidableEq, Repr

/-- `to_upper_ascii` of the REST adapter, the same loop as `Core::upper`. -/
def toUpperAscii (s : String) : String := Core.upper s

/-- A request after validation of its body. -/
inductive Request where
  /-- `POST /start`. -/
  | start (timeoutMs : Int)
  /-- `POST /stop`. -/
  | stop
  /-- `POST /command`, with the baudrate an `INIT` carries. -/
  | command (cmd : String) (baud : Option Int)
  /-- `GET /result/<id>`. -/
  | result (id : String)
  /-- A body that fails validation. -/
  | malformed
  deriving DecidableEq, Repr

/-- The JSON answer of an endpoint; absent members are `none`. -/
structure Reply where
  /-- HTTP status. -/
  status : Nat
  /-- `ok`. -/
  ok : Bool
  /-- `message`. -/
  message : String
  /-- `command`. -/
  command : Option String := none
  /-- `state`. -/
  state : Option State := none
  /-- `jobId`, also where it stands under `data`. -/
  jobId : Option String := none
  /-- `status` of a job. -/
  jobStatus : Option JobStatus := none
  /-- `data.qr`. -/
  qr : Option Bytes := none
  deriving DecidableEq, Repr

/-- `error_response`. -/
def errorResponse (code : Nat) (msg : String) : Reply :=
  { status := code, ok := false, message := msg }

/-- Control point of a REST handler. -/
inductive RestPc where
  /-- A malformed body, about to be answered. -/
  | rejecting
  /-- At `jobs_.set_baudrate`. -/
  | configuring (baud : Int)
  /-- At `dispatcher_.submit_*`. -/
  | submitting
  /-- Inside `wait_for` on the future. -/
  | awaiting
  /-- `JobRunner::stop`, at `running_ = false`. -/
  | cancelling
  /-- `JobRunner::stop`, at `worker_.joinable()`. -/
  | checking
  /-- `JobRunner::stop`, at `worker_.join()`: about to call it, or waiting in it. -/
  | joining
  /-- `JobRunner::start`, at `gen_id` and `store_.create`. -/
  | creating
  /-- `JobRunner::start`, at `running_ = true`. -/
  | arming (id : String)
  /-- `JobRunner::start`, at the assignment of `worker_`. -/
  | launching (id : String)
  /-- `/start`, at the reading of the core state for the answer. -/
  | replying (id : String)
  /-- `/result`, at `store_.exists`. -/
  | looking (id : String)
  /-- `/result`, at `store_.get`. -/
  | fetching (id : String)
  /-- Answered. -/
  | answered (reply : Reply)
  deriving DecidableEq, Repr

namespace Request

/-- The first shared access of a handler. -/
def entry : Request → RestPc
  | .start _ => .submitting
  | .stop => .cancelling
  | .command cmd baud =>
    if toUpperAscii cmd = "INIT" then
      match baud with
      | some b => .configuring b
      | none => .submitting
    else if toUpperAscii cmd = "STOP" then .cancelling
    else .submitting
  | .result id => .looking id
  | .malformed => .rejecting

/-- The task a handler submits. -/
def task {π : Type} (prom : π) : Request → Option (Task π)
  | .start timeoutMs => some (.ofStartJob timeoutMs prom)
  | .stop => some (.ofStop prom)
  | .command cmd _ => some (.ofSync (toUpperAscii cmd) prom)
  | .result _ => none
  | .malformed => none

/-- The timeout handed to `jobs_.start`. -/
def timeout : Request → Int
  | .start timeoutMs => timeoutMs
  | _ => 0

/-- The request is a `/start`. -/
def starts : Request → Bool
  | .start _ => true
  | _ => false

/-- The request calls `jobs_.stop()` before it submits: `/stop`, or `/command` with `STOP`. -/
def stops : Request → Bool
  | .stop => true
  | .command cmd _ => toUpperAscii cmd = "STOP"
  | _ => false

/-- Where a handler goes when `JobRunner::stop` returns: on inside `JobRunner::start`, or to
its submission. -/
def afterStop : Request → RestPc
  | .start _ => .creating
  | _ => .submitting

/-- What a handler does with the response of its task. -/
def onResponse (request : Request) (r : Response) : RestPc :=
  match request with
  | .start _ => if r.ok then .cancelling else .answered (errorResponse r.httpStatus r.message)
  | .stop =>
    .answered { status := r.httpStatus, ok := r.ok, state := some r.state, message := r.message }
  | _ =>
    .answered { status := r.httpStatus, ok := r.ok, command := some r.command,
                state := some r.state, message := r.message, qr := r.qr, jobId := r.jobId }

/-- Where a handler can begin. -/
theorem entry_cases (request : Request) : request.entry = .submitting ∨
    request.entry = .cancelling ∨ (∃ baud, request.entry = .configuring baud) ∨
    (∃ id, request.entry = .looking id) ∨ request.entry = .rejecting := by
  cases request with
  | command cmd baud =>
    by_cases init : toUpperAscii cmd = "INIT"
    · cases baud <;> simp [entry, init]
    · by_cases halt : toUpperAscii cmd = "STOP" <;> simp [entry, init, halt]
  | _ => simp [entry]

/-- Where a response can lead. -/
theorem onResponse_cases (request : Request) (r : Response) :
    request.onResponse r = .cancelling ∨ ∃ reply, request.onResponse r = .answered reply := by
  cases request with
  | start timeoutMs =>
    by_cases ok : r.ok = true
    · exact .inl (if_pos ok)
    · exact .inr ⟨_, if_neg ok⟩
  | _ => exact .inr ⟨_, rfl⟩

end Request

/-- One REST handler. -/
structure Handler where
  /-- What it was asked. -/
  request : Request
  /-- Where it is. -/
  pc : RestPc
  deriving DecidableEq, Repr

/-- The handler has answered. -/
def Handler.done (hd : Handler) : Bool :=
  match hd.pc with
  | .answered _ => true
  | _ => false

/-- One job worker. -/
structure Thread where
  /-- The handler that started it. -/
  owner : Nat
  /-- Its `run_job` call. -/
  job : Job
  deriving DecidableEq, Repr

/-- The whole service. -/
structure World where
  /-- The dispatcher and its core. -/
  disp : Dispatcher Submitter := {}
  /-- `JobRunner::running_`. -/
  running : Bool := false
  /-- The thread `JobRunner::worker_` represents, while it is joinable. -/
  handle : Option Nat := none
  /-- `JobRunner::baudrate_`. -/
  baudrate : Int := 115200
  /-- `JobStore`. -/
  store : JobStore := {}
  /-- Every job worker started so far. -/
  threads : List Thread := []
  /-- Every request received so far. -/
  handlers : List Handler := []
  /-- `std::terminate` was called. -/
  aborted : Bool := false

/-- One step of the service. -/
inductive Event where
  /-- A request arrives. -/
  | request (request : Request)
  /-- A handler moves. -/
  | handler (h : Nat)
  /-- A handler at `gen_id` draws its digits and creates the record. -/
  | draw (h : Nat) (rd : Fin 8 → UInt32)
  /-- A handler's wait of 500 ms ends without a response. -/
  | giveUp (h : Nat)
  /-- A job worker moves. -/
  | job (k : Nat) (obs : Obs)
  /-- The dispatcher's worker moves. -/
  | dispatch (act : LoopAct)

/-- A worker loads the flag that is there. -/
def Obs.agrees (running : Bool) : Obs → Bool
  | .running flag => flag = running
  | _ => true

namespace World

/-- Move a handler to its next control point. -/
def moveTo (w : World) (h : Nat) (request : Request) (pc : RestPc) : World :=
  { w with handlers := w.handlers.set h ⟨request, pc⟩ }

/-- One step of the handler number `h`. -/
def handlerStep (w : World) (h : Nat) (request : Request) : RestPc → Option World
  | .rejecting => some (w.moveTo h request (.answered (errorResponse 400 "ERR:BAD_REQUEST")))
  | .configuring baud =>
    -- `set_baudrate` ignores a value that is not positive
    some ({ w with baudrate := if baud ≤ 0 then w.baudrate else baud }.moveTo h request
      .submitting)
  | .submitting =>
    (request.task (.handler h)).map fun task =>
      { w with disp := w.disp.push task }.moveTo h request .awaiting
  | .awaiting =>
    (w.disp.future (.handler h)).map fun r => w.moveTo h request (request.onResponse r)
  | .cancelling => some ({ w with running := false }.moveTo h request .checking)
  | .checking =>
    some (w.moveTo h request (if w.handle.isSome then .joining else request.afterStop))
  | .joining =>
    match w.handle with
    | none =>
      -- `join` called on a thread object that is no longer joinable throws; Crow answers 500.
      -- A caller that was waiting in `join` when another one's returned may wait forever: that
      -- is a run in which the handler never takes this step.
      some (w.moveTo h request (.answered (errorResponse 500 "")))
    | some k =>
      match w.threads[k]? with
      | some thread =>
        if thread.job.pc = .exited then
          some ({ w with handle := none }.moveTo h request request.afterStop)
        else none
      | none => none
  | .creating => none
  | .arming id => some ({ w with running := true }.moveTo h request (.launching id))
  | .launching id =>
    -- assigning over a joinable thread object calls `std::terminate`
    if w.handle.isSome then some { w with aborted := true }
    else some ({ w with
      threads := w.threads ++ [Thread.mk h { id, timeoutMs := request.timeout }],
      handle := some w.threads.length }.moveTo h request (.replying id))
  | .replying id =>
    some (w.moveTo h request (.answered
      { status := 202, ok := true, jobId := some id, state := some w.disp.core.st,
        message := "ACCEPTED" }))
  | .looking id =>
    some (w.moveTo h request (if w.store.contains id then .fetching id
      else .answered (errorResponse 404 "ERR:NOT_FOUND")))
  | .fetching id =>
    match w.store.get id with
    | none => some (w.moveTo h request (.answered (errorResponse 500 "")))
    | some res =>
      some (w.moveTo h request (.answered
        { status := 200, ok := true, jobId := some id, jobStatus := some res.status,
          state := some w.disp.core.st, message := res.message, qr := res.qr }))
  | .answered _ => none

/-- What a job's step does to the shared data; an exception in a thread function ends the
process. -/
def applyEffect (w : World) (k : Nat) (id : String) : Effect → World
  | .silent => w
  | .write outcome =>
    match w.store.write id outcome with
    | some store => { w with store }
    | none => { w with aborted := true }
  | .clearRunning => { w with running := false }
  | .submitFinish => { w with disp := w.disp.push (.ofFinishJob (.job k)) }

/-- One step of the job worker number `k`. -/
def jobStep (w : World) (k : Nat) (obs : Obs) : Option World :=
  match w.threads[k]? with
  | some thread =>
    if obs.agrees w.running then
      (thread.job.step obs).map fun (job, effect) =>
        { w with threads := w.threads.set k { thread with job } }.applyEffect k job.id effect
    else none
  | none => none

/-- One step of the service. -/
def step (w : World) (event : Event) : Option World :=
  if w.aborted then none
  else match event with
    | .request request =>
      some { w with handlers := w.handlers ++ [⟨request, request.entry⟩] }
    | .handler h =>
      match w.handlers[h]? with
      | some hd => w.handlerStep h hd.request hd.pc
      | none => none
    | .draw h rd =>
      match w.handlers[h]? with
      | some ⟨request, .creating⟩ =>
        some ({ w with store := w.store.create (genId rd) }.moveTo h request
          (.arming (genId rd)))
      | _ => none
    | .giveUp h =>
      match w.handlers[h]? with
      | some ⟨request, .awaiting⟩ =>
        if (w.disp.future (.handler h)).isNone then
          some (w.moveTo h request (.answered (errorResponse 503 "ERR:BUSY")))
        else none
      | _ => none
    | .job k obs => w.jobStep k obs
    | .dispatch act => (w.disp.loopStep act).map fun disp => { w with disp }

/-- No request is being served. -/
def Settled (w : World) : Prop := Table.All w.handlers fun _ hd => hd.done = true

/-- The dispatcher's queue is empty and its worker waits. -/
def Drained (w : World) : Prop := w.disp.queue = [] ∧ w.disp.loop = .waiting

instance (w : World) : Decidable w.Settled :=
  inferInstanceAs (Decidable (Table.All w.handlers fun _ hd => hd.done = true))

instance (w : World) : Decidable w.Drained :=
  inferInstanceAs (Decidable (w.disp.queue = [] ∧ w.disp.loop = .waiting))

/-- What one step of the service can be. Every guard of the step function is a premise. -/
inductive Move (w : World) : Event → World → Prop where
  /-- A request arrives. -/
  | arrive (request : Request) :
      Move w (.request request) { w with handlers := w.handlers ++ [⟨request, request.entry⟩] }
  /-- A malformed body is answered. -/
  | reject {h : Nat} {request : Request} (here : w.handlers[h]? = some ⟨request, .rejecting⟩) :
      Move w (.handler h)
        (w.moveTo h request (.answered (errorResponse 400 "ERR:BAD_REQUEST")))
  /-- The baudrate is set. -/
  | configure {h : Nat} {request : Request} {baud : Int}
      (here : w.handlers[h]? = some ⟨request, .configuring baud⟩) :
      Move w (.handler h)
        ({ w with baudrate := if baud ≤ 0 then w.baudrate else baud }.moveTo h request
          .submitting)
  /-- A task is pushed. -/
  | submit {h : Nat} {request : Request} {task : Task Submitter}
      (here : w.handlers[h]? = some ⟨request, .submitting⟩)
      (asked : request.task (.handler h) = some task) :
      Move w (.handler h) ({ w with disp := w.disp.push task }.moveTo h request .awaiting)
  /-- A response is received. -/
  | receive {h : Nat} {request : Request} {r : Response}
      (here : w.handlers[h]? = some ⟨request, .awaiting⟩)
      (ready : w.disp.future (.handler h) = some r) :
      Move w (.handler h) (w.moveTo h request (request.onResponse r))
  /-- `running_` is cleared. -/
  | cancel {h : Nat} {request : Request}
      (here : w.handlers[h]? = some ⟨request, .cancelling⟩) :
      Move w (.handler h) ({ w with running := false }.moveTo h request .checking)
  /-- There is no thread to join. -/
  | idle {h : Nat} {request : Request} (here : w.handlers[h]? = some ⟨request, .checking⟩)
      (free : w.handle = none) :
      Move w (.handler h) (w.moveTo h request request.afterStop)
  /-- There is a thread to join. -/
  | wait {h k : Nat} {request : Request} (here : w.handlers[h]? = some ⟨request, .checking⟩)
      (held : w.handle = some k) :
      Move w (.handler h) (w.moveTo h request .joining)
  /-- Another handler joined the thread in between, and the call throws. One that was waiting
  already may never take this step. -/
  | joinFail {h : Nat} {request : Request} (here : w.handlers[h]? = some ⟨request, .joining⟩)
      (free : w.handle = none) :
      Move w (.handler h) (w.moveTo h request (.answered (errorResponse 500 "")))
  /-- The thread is joined. -/
  | join {h k : Nat} {request : Request} {thread : Thread}
      (here : w.handlers[h]? = some ⟨request, .joining⟩) (held : w.handle = some k)
      (found : w.threads[k]? = some thread) (exited : thread.job.pc = .exited) :
      Move w (.handler h) ({ w with handle := none }.moveTo h request request.afterStop)
  /-- A record is created. -/
  | create {h : Nat} {request : Request} (rd : Fin 8 → UInt32)
      (here : w.handlers[h]? = some ⟨request, .creating⟩) :
      Move w (.draw h rd)
        ({ w with store := w.store.create (genId rd) }.moveTo h request (.arming (genId rd)))
  /-- `running_` is set. -/
  | arm {h : Nat} {request : Request} {id : String}
      (here : w.handlers[h]? = some ⟨request, .arming id⟩) :
      Move w (.handler h) ({ w with running := true }.moveTo h request (.launching id))
  /-- The worker thread is started. -/
  | launch {h : Nat} {request : Request} {id : String}
      (here : w.handlers[h]? = some ⟨request, .launching id⟩) (free : w.handle = none) :
      Move w (.handler h)
        ({ w with
            threads := w.threads ++ [Thread.mk h { id, timeoutMs := request.timeout }],
            handle := some w.threads.length }.moveTo h request (.replying id))
  /-- The thread object is still joinable: the process ends. -/
  | terminate {h k : Nat} {request : Request} {id : String}
      (here : w.handlers[h]? = some ⟨request, .launching id⟩) (held : w.handle = some k) :
      Move w (.handler h) { w with aborted := true }
  /-- A `/start` is answered. -/
  | reply {h : Nat} {request : Request} {id : String}
      (here : w.handlers[h]? = some ⟨request, .replying id⟩) :
      Move w (.handler h) (w.moveTo h request (.answered
        { status := 202, ok := true, jobId := some id, state := some w.disp.core.st,
          message := "ACCEPTED" }))
  /-- The record exists. -/
  | look {h : Nat} {request : Request} {id : String}
      (here : w.handlers[h]? = some ⟨request, .looking id⟩)
      (present : (w.store.get id).isSome = true) :
      Move w (.handler h) (w.moveTo h request (.fetching id))
  /-- The record does not exist. -/
  | miss {h : Nat} {request : Request} {id : String}
      (here : w.handlers[h]? = some ⟨request, .looking id⟩) (absent : w.store.get id = none) :
      Move w (.handler h) (w.moveTo h request (.answered (errorResponse 404 "ERR:NOT_FOUND")))
  /-- The record is read and answered. -/
  | fetch {h : Nat} {request : Request} {id : String} {res : JobResult}
      (here : w.handlers[h]? = some ⟨request, .fetching id⟩) (found : w.store.get id = some res) :
      Move w (.handler h) (w.moveTo h request (.answered
        { status := 200, ok := true, jobId := some id, jobStatus := some res.status,
          state := some w.disp.core.st, message := res.message, qr := res.qr }))
  /-- The record is gone. -/
  | fetchFail {h : Nat} {request : Request} {id : String}
      (here : w.handlers[h]? = some ⟨request, .fetching id⟩) (absent : w.store.get id = none) :
      Move w (.handler h) (w.moveTo h request (.answered (errorResponse 500 "")))
  /-- A handler gives up waiting; its task stays queued. -/
  | giveUp {h : Nat} {request : Request} (here : w.handlers[h]? = some ⟨request, .awaiting⟩)
      (unset : w.disp.future (.handler h) = none) :
      Move w (.giveUp h) (w.moveTo h request (.answered (errorResponse 503 "ERR:BUSY")))
  /-- A job worker moves without a shared effect. -/
  | work {k : Nat} {thread : Thread} {job : Job} {obs : Obs}
      (found : w.threads[k]? = some thread) (agrees : obs.agrees w.running = true)
      (moved : thread.job.step obs = some (job, .silent)) :
      Move w (.job k obs) { w with threads := w.threads.set k { thread with job } }
  /-- A job worker stores its outcome. -/
  | write {k : Nat} {thread : Thread} {job : Job} {obs : Obs} {outcome : Outcome}
      {store : JobStore} (found : w.threads[k]? = some thread)
      (moved : thread.job.step obs = some (job, .write outcome))
      (written : w.store.write job.id outcome = some store) :
      Move w (.job k obs) { w with threads := w.threads.set k { thread with job }, store }
  /-- A job worker finds its record missing: the process ends. -/
  | writeFail {k : Nat} {thread : Thread} {job : Job} {obs : Obs} {outcome : Outcome}
      (found : w.threads[k]? = some thread)
      (moved : thread.job.step obs = some (job, .write outcome))
      (unwritten : w.store.write job.id outcome = none) :
      Move w (.job k obs)
        { w with threads := w.threads.set k { thread with job }, aborted := true }
  /-- A job worker clears `running_`. -/
  | clear {k : Nat} {thread : Thread} {job : Job} {obs : Obs}
      (found : w.threads[k]? = some thread)
      (moved : thread.job.step obs = some (job, .clearRunning)) :
      Move w (.job k obs)
        { w with threads := w.threads.set k { thread with job }, running := false }
  /-- A job worker submits its `FINISH_JOB` and exits. -/
  | finish {k : Nat} {thread : Thread} {job : Job} {obs : Obs}
      (found : w.threads[k]? = some thread)
      (moved : thread.job.step obs = some (job, .submitFinish)) :
      Move w (.job k obs)
        { w with threads := w.threads.set k { thread with job },
                 disp := w.disp.push (.ofFinishJob (.job k)) }
  /-- The dispatcher's worker moves. -/
  | dispatch {act : LoopAct} {disp : Dispatcher Submitter}
      (moved : w.disp.loopStep act = some disp) :
      Move w (.dispatch act) { w with disp }

variable {w next : World} {event : Event}

/-- A step of a handler is one of its moves. -/
theorem handlerStep_move {h : Nat} {request : Request} {pc : RestPc}
    (here : w.handlers[h]? = some ⟨request, pc⟩)
    (moved : w.handlerStep h request pc = some next) : Move w (.handler h) next := by
  cases pc with
  | rejecting =>
    cases moved
    exact .reject here
  | configuring baud =>
    cases moved
    exact .configure here
  | submitting =>
    obtain ⟨task, asked, rfl⟩ := Option.map_eq_some_iff.mp moved
    exact .submit here asked
  | awaiting =>
    obtain ⟨r, ready, rfl⟩ := Option.map_eq_some_iff.mp moved
    exact .receive here ready
  | cancelling =>
    cases moved
    exact .cancel here
  | checking =>
    cases moved
    cases held : w.handle with
    | none => simpa [held] using Move.idle here held
    | some k => simpa [held] using Move.wait here held
  | joining =>
    simp only [handlerStep] at moved
    split at moved
    · rename_i held
      cases moved
      exact .joinFail here held
    · rename_i k held
      split at moved
      · rename_i thread found
        split at moved
        · rename_i exited
          cases moved
          exact .join here held found exited
        · contradiction
      · contradiction
  | creating => contradiction
  | arming id =>
    cases moved
    exact .arm here
  | launching id =>
    simp only [handlerStep] at moved
    split at moved
    · rename_i held
      obtain ⟨k, same⟩ := Option.isSome_iff_exists.mp held
      cases moved
      exact .terminate here same
    · rename_i free
      cases moved
      exact .launch here (by simpa using free)
  | replying id =>
    cases moved
    exact .reply here
  | looking id =>
    cases moved
    cases held : w.store.get id with
    | none =>
      have absent : w.store.contains id = false := by
        simpa [JobStore.contains, JobStore.get] using held
      simpa [absent] using Move.miss here held
    | some res =>
      have present : w.store.contains id = true := by
        have same : w.store.jobs id = some res := held
        simp [JobStore.contains, same]
      simpa [present] using Move.look here (by simp [held])
  | fetching id =>
    simp only [handlerStep] at moved
    split at moved
    · rename_i absent
      cases moved
      exact .fetchFail here absent
    · rename_i res found
      cases moved
      exact .fetch here found
  | answered reply => contradiction

/-- A step of a job worker is one of its moves. -/
theorem jobStep_move {k : Nat} {obs : Obs} (moved : w.jobStep k obs = some next) :
    Move w (.job k obs) next := by
  unfold jobStep at moved
  split at moved
  · rename_i thread found
    split at moved
    · rename_i agrees
      obtain ⟨⟨job, effect⟩, stepped, rfl⟩ := Option.map_eq_some_iff.mp moved
      cases effect with
      | silent => exact .work found agrees stepped
      | write outcome =>
        cases written : w.store.write job.id outcome with
        | none => simpa [applyEffect, written] using Move.writeFail found stepped written
        | some store => simpa [applyEffect, written] using Move.write found stepped written
      | clearRunning => exact .clear found stepped
      | submitFinish => exact .finish found stepped
    · contradiction
  · contradiction

/-- Every step of the service is one of its moves, and none follows `std::terminate`. -/
theorem step_move (taken : w.step event = some next) : w.aborted = false ∧ Move w event next := by
  unfold step at taken
  split at taken
  · contradiction
  · rename_i alive
    refine ⟨by simpa using alive, ?_⟩
    split at taken
    · cases taken
      exact .arrive _
    · split at taken
      · rename_i hd here
        exact handlerStep_move here taken
      · contradiction
    · split at taken
      · rename_i here
        cases taken
        exact .create _ here
      · contradiction
    · split at taken
      · rename_i here
        split at taken
        · rename_i unset
          cases taken
          exact .giveUp here (by simpa using unset)
        · contradiction
      · contradiction
    · exact jobStep_move taken
    · obtain ⟨disp, moved, rfl⟩ := Option.map_eq_some_iff.mp taken
      exact .dispatch moved

/-! ## Calls served alone

Schedules of one call from its arrival to its answer, for concrete runs. -/

/-- The dispatcher's worker serves one task. -/
def serve : List Event := [.dispatch .take, .dispatch .execute, .dispatch .setValue]

/-- The handler `h` answers `INIT`. -/
def initCall (h : Nat) : List Event :=
  [.request (.command "INIT" none), .handler h] ++ serve ++ [.handler h]

/-- The handler `h` starts a job while no thread is to be joined. -/
def startCall (h : Nat) (timeoutMs : Int) (rd : Fin 8 → UInt32) : List Event :=
  [.request (.start timeoutMs), .handler h] ++ serve ++
    [.handler h, .handler h, .handler h, .draw h rd, .handler h, .handler h, .handler h]

end World

end QrEdgeGateway
