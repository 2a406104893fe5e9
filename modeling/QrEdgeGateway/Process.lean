import QrEdgeGateway.Service

/-!
# The process

`main` builds the core, the dispatcher, the job store, the job runner and the REST server on its
stack and runs the server. When the server has ended, the locals are destroyed in reverse order:
`~JobRunner` calls `JobRunner::stop`, then the store goes, then `~Dispatcher` calls
`Dispatcher::stop`, then the core goes. Meanwhile a job worker and the dispatcher's worker may
still be running, and they refer to these objects.

Crow's `run` returns when the threads that run the handlers have ended, so no handler is under
way then.
-/

namespace QrEdgeGateway

/-- Where `main` is. -/
inductive MainPc where
  /-- Inside `server.run()`. -/
  | serving
  /-- `~JobRunner`, at `running_ = false`. -/
  | cancelling
  /-- `~JobRunner`, at `worker_.joinable()`. -/
  | checking
  /-- `~JobRunner`, inside `worker_.join()`. -/
  | joining
  /-- The job runner and the store are gone; inside `~Dispatcher`. -/
  | stopping
  /-- The dispatcher and the core are gone too. -/
  | ended
  deriving DecidableEq, Repr

/-- The process: the service and its main thread. -/
structure Process where
  /-- The service. -/
  world : World := {}
  /-- Where `main` is. -/
  main : MainPc := .serving

/-- One step of the process. -/
inductive ProcessEvent where
  /-- The service moves. -/
  | service (event : Event)
  /-- `main` moves. -/
  | main

/-- The service may move: requests only reach a server that runs. -/
def MainPc.lets (main : MainPc) : Event → Bool
  | .request _ => main = .serving
  | _ => true

namespace Process

/-- `main` enters `~Dispatcher`. -/
def enterStop (w : World) : Process :=
  { world := { w with disp := { w.disp with stops := w.disp.stops ++ [.entered] } },
    main := .stopping }

/-- The call of `Dispatcher::stop` that `main` makes, the only one there is, moves. -/
def callStop (w : World) (act : StopAct) : Option Process :=
  (w.disp.stopStep 0 act).map fun disp => { world := { w with disp }, main := .stopping }

/-- One step of `~Dispatcher`. -/
def stopStep (w : World) : Option Process :=
  match (w.disp.stops[0]? : Option StopPc) with
  | some .entered => callStop w .flag
  | some .flagged => callStop w .check
  | some .joining => callStop w .join
  | some .returned => some { world := w, main := .ended }
  | none => none

/-- One step of `main`. -/
def mainStep (w : World) : MainPc → Option Process
  | .serving => if w.Settled then some { world := w, main := .cancelling } else none
  | .cancelling => some { world := { w with running := false }, main := .checking }
  | .checking => if w.handle.isSome then some { world := w, main := .joining }
    else some (enterStop w)
  | .joining =>
    match w.handle with
    | none => none
    | some k =>
      match w.threads[k]? with
      | some thread =>
        if thread.job.pc = .exited then some (enterStop { w with handle := none }) else none
      | none => none
  | .stopping => stopStep w
  | .ended => none

/-- One step of the process; none follows `std::terminate`. -/
def step (p : Process) : ProcessEvent → Option Process
  | .service event =>
    if p.main.lets event then (p.world.step event).map fun world => { p with world } else none
  | .main => if p.world.aborted then none else mainStep p.world p.main

end Process

end QrEdgeGateway
