import Mathlib.Data.List.Nodup
import QrEdgeGateway.Core
import QrEdgeGateway.Lib.Mealy
import QrEdgeGateway.Lib.Transition

/-!
# The dispatcher

`app::Dispatcher` serialises all core operations through one queue and one worker thread.
The critical sections of `m_` are single steps; the worker holds a task at three points of
its loop (taken, executed, promise set), and each `stop()` call has its own control point.

A task carries the identity of its promise. What a promise was set to, in the order of the
`set_value` calls, is the dispatcher's visible output. The `catch (...)` branch of the loop
is not modelled: no core operation throws.
-/

namespace QrEdgeGateway

/-- `app::Task::Kind`. -/
inductive Kind where
  /-- `Core::handle_sync_command`. -/
  | syncCommand
  /-- `Core::start_job`. -/
  | startJob
  /-- `Core::stop`. -/
  | stop
  /-- `Core::finish_job`. -/
  | finishJob
  deriving DecidableEq, Repr

/-- `app::Task`, over any type of promise identities. -/
structure Task (π : Type) where
  /-- What to execute. -/
  kind : Kind := .syncCommand
  /-- Command text of a `syncCommand`. -/
  command : String := ""
  /-- Timeout of a `startJob`. -/
  timeoutMs : Int := 0
  /-- The promise to fulfil. -/
  prom : π
  deriving DecidableEq, Repr

namespace Task

variable {π : Type}

/-- The task of `submit_sync`. -/
def ofSync (cmd : String) (prom : π) : Task π := { kind := .syncCommand, command := cmd, prom }

/-- The task of `submit_start_job`. -/
def ofStartJob (timeoutMs : Int) (prom : π) : Task π := { kind := .startJob, timeoutMs, prom }

/-- The task of `submit_stop`. -/
def ofStop (prom : π) : Task π := { kind := .stop, prom }

/-- The task of `submit_finish_job`. -/
def ofFinishJob (prom : π) : Task π := { kind := .finishJob, prom }

/-- The worker's dispatch on the kind of a task. -/
def execute (core : Core) (task : Task π) : Core × Response :=
  if task.kind = .syncCommand then core.handleSyncCommand task.command
  else if task.kind = .startJob then core.startJob task.timeoutMs
  else if task.kind = .finishJob then core.finishJob
  else core.stop

/-- The task stops the core: `submit_stop`, or a `STOP` command. -/
def halts (task : Task π) : Bool :=
  task.kind = .stop ∨ task.kind = .syncCommand ∧ Core.upper task.command = "STOP"

/-- The operation that a task makes. -/
def operation (task : Task π) : Operation :=
  match task.kind with
  | .syncCommand => .handleSyncCommand task.command
  | .startJob => .startJob task.timeoutMs
  | .finishJob => .finishJob
  | .stop => .stop

/-- Executing a task makes its operation. -/
theorem execute_eq_perform (core : Core) (task : Task π) :
    task.execute core = task.operation.perform core := by
  unfold execute operation
  cases task.kind <;> rfl

/-- The core runs a job after a task exactly if it did before and the task neither stops it nor
finishes a job, or if the task is an accepted start. -/
theorem execute_running (core : Core) (task : Task π) :
    (task.execute core).1.st = .running ↔
      (core.st = .running ∧ task.halts = false ∧ task.kind ≠ .finishJob) ∨
      (core.st = .init ∧ task.kind = .startJob) := by
  rw [execute_eq_perform, Core.running_perform, or_comm]
  unfold operation halts
  cases kind : task.kind with
  | syncCommand => simp [Operation.IsStop, Operation.IsStart]
  | startJob =>
    have accepted := core.startJob_ok task.timeoutMs
    simp [Operation.IsStop, Operation.IsStart, Operation.perform, accepted]
  | finishJob => simp [Operation.IsStart]
  | stop => simp [Operation.IsStop, Operation.IsStart]

end Task

/-- Control point of `Dispatcher::loop`. -/
inductive LoopPc (π : Type) where
  /-- At the wait on `cv_`. -/
  | waiting
  /-- A task has been popped and the lock released. -/
  | taken (task : Task π)
  /-- The core operation has returned; the promise is not set yet. -/
  | executed (task : Task π) (response : Response)
  /-- The loop has returned. -/
  | exited
  deriving DecidableEq, Repr

/-- The task the worker holds outside the queue. -/
def LoopPc.held {π : Type} : LoopPc π → List (Task π)
  | .taken task => [task]
  | .executed task _ => [task]
  | _ => []

/-- Control point of one `Dispatcher::stop` call. -/
inductive StopPc where
  /-- Before the critical section. -/
  | entered
  /-- `stopping_` set by this call; before `joinable()`. -/
  | flagged
  /-- Inside `worker_.join()`. -/
  | joining
  /-- The call has returned. -/
  | returned
  deriving DecidableEq, Repr

/-- `app::Dispatcher`, with the core it refers to. -/
structure Dispatcher (π : Type) where
  /-- `core_`. -/
  core : Core := {}
  /-- `q_`. -/
  queue : List (Task π) := []
  /-- `stopping_`. -/
  stopping : Bool := false
  /-- Where the worker thread is. -/
  loop : LoopPc π := .waiting
  /-- `worker_.joinable()`. -/
  joinable : Bool := true
  /-- The promises set so far, in order, with their values. -/
  promises : List (π × Response) := []
  /-- The `stop()` calls made so far. -/
  stops : List StopPc := []
  deriving Repr

/-- A step of the worker thread. -/
inductive LoopAct where
  /-- The wait ends on a non-empty queue; the head is popped. -/
  | take
  /-- The wait ends on `stopping_` with an empty queue; the loop returns. -/
  | exit
  /-- The core operation of the held task. -/
  | execute
  /-- `prom.set_value`. -/
  | setValue
  deriving DecidableEq, Repr

/-- A step of one `stop()` call. -/
inductive StopAct where
  /-- The critical section: return early, or set `stopping_`. -/
  | flag
  /-- `worker_.joinable()`. -/
  | check
  /-- `worker_.join()`, which waits for the loop to return. -/
  | join
  deriving DecidableEq, Repr

namespace Dispatcher

variable {π : Type}

/-- `Dispatcher::push`. -/
def push (d : Dispatcher π) (task : Task π) : Dispatcher π :=
  { d with queue := d.queue ++ [task] }

/-- One step of `Dispatcher::loop`. -/
def loopStep (d : Dispatcher π) : LoopAct → Option (Dispatcher π)
  | .take =>
    match d.loop, d.queue with
    | .waiting, task :: rest => some { d with queue := rest, loop := .taken task }
    | _, _ => none
  | .exit =>
    match d.loop, d.queue with
    | .waiting, [] => if d.stopping then some { d with loop := .exited } else none
    | _, _ => none
  | .execute =>
    match d.loop with
    | .taken task =>
      let (core, response) := task.execute d.core
      some { d with core, loop := .executed task response }
    | _ => none
  | .setValue =>
    match d.loop with
    | .executed task response =>
      some { d with loop := .waiting, promises := d.promises ++ [(task.prom, response)] }
    | _ => none

/-- One step of the `stop()` call number `i`. -/
def stopStep (d : Dispatcher π) (i : Nat) (act : StopAct) : Option (Dispatcher π) :=
  match act, d.stops[i]? with
  | .flag, some .entered =>
    if d.stopping then some { d with stops := d.stops.set i .returned }
    else some { d with stopping := true, stops := d.stops.set i .flagged }
  | .check, some .flagged =>
    some { d with stops := d.stops.set i (if d.joinable then .joining else .returned) }
  | .join, some .joining =>
    match d.loop with
    | .exited => some { d with joinable := false, stops := d.stops.set i .returned }
    | _ => none
  | _, _ => none

/-- The value of a future, once its promise is set. -/
def future [DecidableEq π] (d : Dispatcher π) (prom : π) : Option Response :=
  (d.promises.find? fun entry => entry.1 = prom).map Prod.snd

/-- The promises of all tasks pushed so far, in the order pushed: those set, that of the held
task, those queued. -/
def tags (d : Dispatcher π) : List π :=
  d.promises.map Prod.fst ++ (d.loop.held ++ d.queue).map Task.prom

/-- Tasks whose promise is not set yet, oldest first. -/
def unanswered (d : Dispatcher π) : List (Task π) := d.loop.held ++ d.queue

/-- Tasks the core has not executed yet, oldest first. -/
def unexecuted (d : Dispatcher π) : List (Task π) :=
  match d.loop with
  | .taken task => task :: d.queue
  | _ => d.queue

/-- What one step of the worker does, case by case. -/
theorem loopStep_cases {d next : Dispatcher π} {act : LoopAct}
    (moved : d.loopStep act = some next) :
    (∃ task rest, act = .take ∧ d.loop = .waiting ∧ d.queue = task :: rest ∧
      next = { d with queue := rest, loop := .taken task }) ∨
    (act = .exit ∧ d.loop = .waiting ∧ d.queue = [] ∧ d.stopping = true ∧
      next = { d with loop := .exited }) ∨
    (∃ task, act = .execute ∧ d.loop = .taken task ∧
      next = { d with core := (task.execute d.core).1,
                      loop := .executed task (task.execute d.core).2 }) ∨
    (∃ task response, act = .setValue ∧ d.loop = .executed task response ∧
      next = { d with loop := .waiting, promises := d.promises ++ [(task.prom, response)] }) := by
  cases act with
  | take =>
    simp only [loopStep] at moved
    split at moved
    · rename_i task rest waiting queued
      cases moved
      exact .inl ⟨task, rest, rfl, waiting, queued, rfl⟩
    · contradiction
  | exit =>
    simp only [loopStep] at moved
    split at moved
    · rename_i waiting queued
      split at moved
      · rename_i stopping
        cases moved
        exact .inr (.inl ⟨rfl, waiting, queued, stopping, rfl⟩)
      · contradiction
    · contradiction
  | execute =>
    simp only [loopStep] at moved
    split at moved
    · rename_i task taken
      cases moved
      exact .inr (.inr (.inl ⟨task, rfl, taken, rfl⟩))
    · contradiction
  | setValue =>
    simp only [loopStep] at moved
    split at moved
    · rename_i task response executed
      cases moved
      exact .inr (.inr (.inr ⟨task, response, rfl, executed, rfl⟩))
    · contradiction

/-- The worker leaves the `stop()` calls, their flag and the handle alone. -/
theorem loopStep_frame {d next : Dispatcher π} {act : LoopAct}
    (moved : d.loopStep act = some next) :
    next.stops = d.stops ∧ next.stopping = d.stopping ∧ next.joinable = d.joinable := by
  obtain ⟨_, _, -, -, -, rfl⟩ | ⟨-, -, -, -, rfl⟩ | ⟨_, -, -, rfl⟩ | ⟨_, _, -, -, rfl⟩ :=
    loopStep_cases moved
  all_goals exact ⟨rfl, rfl, rfl⟩

/-- The loop returns only by its exit. -/
theorem exit_of_exited {d next : Dispatcher π} {act : LoopAct}
    (moved : d.loopStep act = some next) (exited : next.loop = .exited) :
    act = .exit ∧ d.loop = .waiting ∧ d.stopping = true := by
  obtain ⟨_, _, -, -, -, rfl⟩ | ⟨rfl, waiting, -, stopping, -⟩ | ⟨_, -, -, rfl⟩ |
    ⟨_, _, -, -, rfl⟩ := loopStep_cases moved
  · cases exited
  · exact ⟨rfl, waiting, stopping⟩
  · cases exited
  · cases exited

/-- A push appends its promise. -/
@[simp] theorem tags_push (d : Dispatcher π) (task : Task π) :
    (d.push task).tags = d.tags ++ [task.prom] := by
  simp [tags, push]

/-- No step of the worker changes which promises have been pushed, nor their order. -/
theorem tags_loopStep {d next : Dispatcher π} {act : LoopAct}
    (moved : d.loopStep act = some next) : next.tags = d.tags := by
  obtain ⟨task, rest, -, waiting, queued, rfl⟩ | ⟨-, waiting, queued, -, rfl⟩ |
    ⟨task, -, taken, rfl⟩ | ⟨task, response, -, executed, rfl⟩ := loopStep_cases moved
  · simp [tags, waiting, queued, LoopPc.held]
  · simp [tags, waiting, queued, LoopPc.held]
  · simp [tags, taken, LoopPc.held]
  · simp [tags, executed, LoopPc.held]

/-- A push appends its task to those not answered. -/
@[simp] theorem unanswered_push (d : Dispatcher π) (task : Task π) :
    (d.push task).unanswered = d.unanswered ++ [task] := by
  simp [unanswered, push]

/-- The worker answers tasks and adds none. -/
theorem unanswered_loopStep {d next : Dispatcher π} {act : LoopAct}
    (moved : d.loopStep act = some next) : next.unanswered ⊆ d.unanswered := by
  obtain ⟨task, rest, -, waiting, queued, rfl⟩ | ⟨-, waiting, queued, -, rfl⟩ |
    ⟨task, -, taken, rfl⟩ | ⟨task, response, -, executed, rfl⟩ := loopStep_cases moved
  · simp [unanswered, waiting, queued, LoopPc.held]
  · simp [unanswered, waiting, queued, LoopPc.held]
  · simp [unanswered, taken, LoopPc.held]
  · simp [unanswered, executed, LoopPc.held]

/-- A push appends its task to those not executed. -/
@[simp] theorem unexecuted_push (d : Dispatcher π) (task : Task π) :
    (d.push task).unexecuted = d.unexecuted ++ [task] := by
  unfold unexecuted push
  cases d.loop <;> simp

/-- An execution takes the oldest task through the core; no other step of the worker touches
the core or the tasks not executed. -/
theorem unexecuted_loopStep {d next : Dispatcher π} {act : LoopAct}
    (moved : d.loopStep act = some next) :
    (act ≠ .execute ∧ next.core = d.core ∧ next.unexecuted = d.unexecuted) ∨
    ∃ task, act = .execute ∧ d.loop = .taken task ∧ next.core = (task.execute d.core).1 ∧
      d.unexecuted = task :: next.unexecuted := by
  obtain ⟨task, rest, rfl, waiting, queued, rfl⟩ | ⟨rfl, waiting, queued, -, rfl⟩ |
    ⟨task, rfl, taken, rfl⟩ | ⟨task, response, rfl, executed, rfl⟩ := loopStep_cases moved
  · exact .inl ⟨by simp, rfl, by simp [unexecuted, waiting, queued]⟩
  · exact .inl ⟨by simp, rfl, by simp [unexecuted, waiting]⟩
  · exact .inr ⟨task, rfl, taken, rfl, by simp [unexecuted, taken]⟩
  · exact .inl ⟨by simp, rfl, by simp [unexecuted, executed]⟩

/-- A task not executed is not answered. -/
theorem unexecuted_subset (d : Dispatcher π) : d.unexecuted ⊆ d.unanswered := by
  unfold unexecuted unanswered
  cases d.loop <;> simp [LoopPc.held]

/-- The promise of a task not answered has been pushed. -/
theorem prom_mem_tags {d : Dispatcher π} {task : Task π} (pending : task ∈ d.unanswered) :
    task.prom ∈ d.tags :=
  List.mem_append_right _ (List.mem_map_of_mem pending)

variable [DecidableEq π]

/-- A future's value stands among the promises set. -/
theorem mem_of_future {d : Dispatcher π} {prom : π} {response : Response}
    (ready : d.future prom = some response) : (prom, response) ∈ d.promises := by
  obtain ⟨entry, found, rfl⟩ := Option.map_eq_some_iff.mp ready
  have same : entry.1 = prom := by simpa using List.find?_some found
  rw [← same]
  exact List.mem_of_find?_eq_some found

/-- With distinct promises every set promise is its future's value. -/
theorem future_of_mem {d : Dispatcher π} {prom : π} {response : Response}
    (distinct : d.tags.Nodup) (set : (prom, response) ∈ d.promises) :
    d.future prom = some response := by
  have keys : (d.promises.map Prod.fst).Nodup := (List.nodup_append.mp distinct).1
  unfold future
  cases found : d.promises.find? fun entry => entry.1 = prom with
  | none => simpa using List.find?_eq_none.mp found _ set
  | some entry =>
    have same : entry.1 = prom := by simpa using List.find?_some found
    have here := List.mem_of_find?_eq_some found
    have equal := List.inj_on_of_nodup_map keys here set same
    simp [equal]

end Dispatcher

/-! ## Callers of the dispatcher

Any number of threads submit tasks and call `stop()`. Every `Task` owns a promise of its own;
the model names it by its submitter and the number of tasks pushed before it. -/

/-- A promise, named by its submitter and its place in the order of pushes. -/
structure Promise where
  /-- The submitting thread. -/
  owner : Nat
  /-- How many tasks were pushed earlier. -/
  ticket : Nat
  deriving DecidableEq, Repr

/-- The four `submit_*` functions. -/
inductive Submission where
  /-- `submit_sync`. -/
  | sync (cmd : String)
  /-- `submit_start_job`. -/
  | startJob (timeoutMs : Int)
  /-- `submit_stop`. -/
  | stop
  /-- `submit_finish_job`. -/
  | finishJob
  deriving DecidableEq, Repr

/-- The task a submission pushes. -/
def Submission.task {π : Type} (submission : Submission) (prom : π) : Task π :=
  match submission with
  | .sync cmd => .ofSync cmd prom
  | .startJob timeoutMs => .ofStartJob timeoutMs prom
  | .stop => .ofStop prom
  | .finishJob => .ofFinishJob prom

/-- A submission's task carries the promise it was given. -/
@[simp] theorem Submission.task_prom {π : Type} (submission : Submission) (prom : π) :
    (submission.task prom).prom = prom := by
  cases submission <;> rfl

/-- One step of the dispatcher with its callers. -/
inductive Call where
  /-- A thread submits a task. -/
  | submit (owner : Nat) (submission : Submission)
  /-- The worker thread moves. -/
  | loop (act : LoopAct)
  /-- A thread calls `stop()`. -/
  | stopCall
  /-- The `stop()` call number `i` moves. -/
  | stop (i : Nat) (act : StopAct)
  deriving DecidableEq, Repr

namespace Dispatcher

/-- The task a call pushes, if it pushes one. -/
def submitted (d : Dispatcher Promise) : Call → List (Task Promise)
  | .submit owner submission => [submission.task ⟨owner, d.tags.length⟩]
  | _ => []

/-- The dispatcher under any interleaving of its callers and its worker. -/
def step (d : Dispatcher Promise) : Call → Option (Dispatcher Promise)
  | .submit owner submission => some (d.push (submission.task ⟨owner, d.tags.length⟩))
  | .loop act => d.loopStep act
  | .stopCall => some { d with stops := d.stops ++ [.entered] }
  | .stop i act => d.stopStep i act

/-- The task a call executes, if it executes one. -/
def performed (d : Dispatcher Promise) : Call → List (Task Promise)
  | .loop .execute => d.loop.held
  | _ => []

/-- All tasks pushed along a run, in order. -/
def pushedAlong (d : Dispatcher Promise) : List Call → List (Task Promise)
  | [] => []
  | call :: rest =>
    d.submitted call ++ ((d.step call).map fun next => next.pushedAlong rest).getD []

/-- All tasks executed along a run, in order. -/
def performedAlong (d : Dispatcher Promise) : List Call → List (Task Promise)
  | [] => []
  | call :: rest =>
    d.performed call ++ ((d.step call).map fun next => next.performedAlong rest).getD []

/-- What one step of a `stop()` call does, case by case. -/
theorem stopStep_cases {π : Type} {d next : Dispatcher π} {i : Nat} {act : StopAct}
    (moved : d.stopStep i act = some next) :
    (act = .flag ∧ d.stops[i]? = some .entered ∧ d.stopping = true ∧
      next = { d with stops := d.stops.set i .returned }) ∨
    (act = .flag ∧ d.stops[i]? = some .entered ∧ d.stopping = false ∧
      next = { d with stopping := true, stops := d.stops.set i .flagged }) ∨
    (act = .check ∧ d.stops[i]? = some .flagged ∧
      next = { d with stops := d.stops.set i (if d.joinable then .joining else .returned) }) ∨
    (act = .join ∧ d.stops[i]? = some .joining ∧ d.loop = .exited ∧
      next = { d with joinable := false, stops := d.stops.set i .returned }) := by
  unfold stopStep at moved
  split at moved
  · rename_i here
    split at moved
    · rename_i stopping
      cases moved
      exact .inl ⟨rfl, here, stopping, rfl⟩
    · rename_i running
      cases moved
      exact .inr (.inl ⟨rfl, here, by simpa using running, rfl⟩)
  · rename_i here
    cases moved
    exact .inr (.inr (.inl ⟨rfl, here, rfl⟩))
  · rename_i here
    split at moved
    · rename_i exited
      cases moved
      exact .inr (.inr (.inr ⟨rfl, here, exited, rfl⟩))
    · contradiction
  · contradiction

/-- A `stop()` call moves only its own control point, the flag and the handle. -/
theorem stopStep_frame {π : Type} {d next : Dispatcher π} {i : Nat} {act : StopAct}
    (moved : d.stopStep i act = some next) :
    next.core = d.core ∧ next.queue = d.queue ∧ next.loop = d.loop ∧
      next.promises = d.promises := by
  obtain ⟨-, -, -, rfl⟩ | ⟨-, -, -, rfl⟩ | ⟨-, -, rfl⟩ | ⟨-, -, -, rfl⟩ := stopStep_cases moved
  all_goals exact ⟨rfl, rfl, rfl, rfl⟩

/-- Only the worker moves the loop and sets promises. -/
theorem step_worker {d next : Dispatcher Promise} {call : Call} (moved : d.step call = some next) :
    (∃ act, call = .loop act ∧ d.loopStep act = some next) ∨
      (next.loop = d.loop ∧ next.promises = d.promises) := by
  cases call with
  | submit owner submission =>
    cases moved
    exact .inr ⟨rfl, rfl⟩
  | loop act => exact .inl ⟨act, rfl, moved⟩
  | stopCall =>
    cases moved
    exact .inr ⟨rfl, rfl⟩
  | stop i act =>
    obtain ⟨-, -, loop, promises⟩ := stopStep_frame moved
    exact .inr ⟨loop, promises⟩

end Dispatcher

end QrEdgeGateway
