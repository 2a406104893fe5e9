import Mathlib.Data.List.Range
import QrEdgeGateway.Dispatcher

/-!
# The dispatcher serialises the core

The abstract meaning of the dispatcher is one sequential run of `Core` over the tasks in the
order they were pushed. The ledger of a state splits the pushed tasks into those answered,
the one held by the worker and those queued; every step of a caller, of the worker and of a
`stop()` call keeps it, so the answers given are always a prefix of the sequential run's.
-/

namespace QrEdgeGateway

namespace Dispatcher

open Mealy

/-- The sequential core over the operations of tasks. -/
abbrev coreRun (tasks : List (Task Promise)) : List Response :=
  outputs Operation.perform ({} : Core) (tasks.map Task.operation)

/-- The core's state after the operations of tasks. -/
abbrev coreAfter (tasks : List (Task Promise)) : Core :=
  final Operation.perform ({} : Core) (tasks.map Task.operation)

/-- Executing one more task is one more operation of the core. -/
theorem coreAfter_concat (tasks : List (Task Promise)) (task : Task Promise) :
    coreAfter (tasks ++ [task]) = (task.execute (coreAfter tasks)).1 := by
  rw [coreAfter, List.map_append, List.map_singleton, final_concat, Task.execute_eq_perform]

/-- Its response is one more response. -/
theorem coreRun_concat (tasks : List (Task Promise)) (task : Task Promise) :
    coreRun (tasks ++ [task]) = coreRun tasks ++ [(task.execute (coreAfter tasks)).2] := by
  rw [coreRun, List.map_append, List.map_singleton, outputs_concat, Task.execute_eq_perform]

/-- The task already executed whose promise is still open. -/
def ran : LoopPc Promise → List (Task Promise)
  | .executed task _ => [task]
  | _ => []

/-- The account of a state: `pushed` are all tasks pushed so far, `executed` those whose core
operation has been made. -/
structure Ledger (d : Dispatcher Promise) (pushed executed : List (Task Promise)) : Prop where
  /-- Answered tasks come first, then the held one, then the queue; the promises hold the
  sequential answers. -/
  split : ∃ answered, pushed = answered ++ d.unanswered ∧ executed = answered ++ ran d.loop ∧
    d.promises = (answered.map Task.prom).zip (coreRun answered) ∧
    ∀ task response, d.loop = .executed task response →
      response = (task.execute (coreAfter answered)).2
  /-- The core has run exactly the executed tasks. -/
  core : d.core = coreAfter executed
  /-- Tickets count the pushes. -/
  tickets : pushed.map (fun task => task.prom.ticket) = List.range pushed.length

variable {d next : Dispatcher Promise} {pushed executed : List (Task Promise)}

/-- At the start nothing is pushed. -/
theorem ledger_initial : Ledger {} [] [] :=
  ⟨⟨[], rfl, rfl, rfl, fun _ _ held => by cases held⟩, rfl, rfl⟩

/-- The promises pushed are those of the pushed tasks, in order. -/
theorem Ledger.tags_eq (ledger : Ledger d pushed executed) :
    d.tags = pushed.map Task.prom := by
  obtain ⟨answered, shape, -, answers, -⟩ := ledger.split
  have keys : d.promises.map Prod.fst = answered.map Task.prom := by
    rw [answers, List.map_fst_zip]
    simp
  rw [shape]
  simp [tags, keys, unanswered]

/-- A submission extends the account by its task. -/
theorem Ledger.submit (ledger : Ledger d pushed executed) (owner : Nat)
    (submission : Submission) :
    Ledger (d.push (submission.task ⟨owner, d.tags.length⟩))
      (pushed ++ [submission.task ⟨owner, d.tags.length⟩]) executed := by
  have count : d.tags.length = pushed.length := by rw [ledger.tags_eq, List.length_map]
  obtain ⟨answered, shape, done, answers, open_⟩ := ledger.split
  refine ⟨⟨answered, ?_, done, answers, open_⟩, ledger.core, ?_⟩
  · rw [shape, List.append_assoc]
    simp [unanswered, push]
  · rw [List.map_append, ledger.tickets, List.length_append, List.length_singleton,
      List.range_succ]
    simp [count]

/-- A step of the worker moves one task along the account. -/
theorem Ledger.loop {act : LoopAct} (ledger : Ledger d pushed executed)
    (moved : d.loopStep act = some next) :
    Ledger next pushed (executed ++ d.performed (.loop act)) := by
  obtain ⟨answered, shape, done, answers, open_⟩ := ledger.split
  obtain ⟨task, rest, rfl, waiting, queued, rfl⟩ | ⟨rfl, waiting, queued, -, rfl⟩ |
    ⟨task, rfl, taken, rfl⟩ | ⟨task, response, rfl, held, rfl⟩ := loopStep_cases moved
  · refine ⟨⟨answered, ?_, ?_, answers, fun _ _ same => by cases same⟩, ?_, ledger.tickets⟩
    · rw [shape]
      simp [unanswered, LoopPc.held, waiting, queued]
    · simp [done, waiting, ran, performed]
    · simpa [performed] using ledger.core
  · refine ⟨⟨answered, ?_, ?_, answers, fun _ _ same => by cases same⟩, ?_, ledger.tickets⟩
    · rw [shape]
      simp [unanswered, LoopPc.held, waiting, queued]
    · simp [done, waiting, ran, performed]
    · simpa [performed] using ledger.core
  · have before : executed = answered := by simpa [ran, taken] using done
    have core := ledger.core
    rw [before] at core
    refine ⟨⟨answered, ?_, ?_, answers, ?_⟩, ?_, ledger.tickets⟩
    · rw [shape]
      simp [unanswered, LoopPc.held, taken]
    · simp [before, ran, performed, taken, LoopPc.held]
    · intro other response same
      cases same
      rw [← core]
    · simp only [before, performed, taken, LoopPc.held, coreAfter_concat, core]
  · have value := open_ task response held
    refine ⟨⟨answered ++ [task], ?_, ?_, ?_, fun _ _ same => by cases same⟩, ?_,
      ledger.tickets⟩
    · rw [shape]
      simp [unanswered, LoopPc.held, held]
    · simp [done, held, ran, performed]
    · have equal : (answered.map Task.prom).length = (coreRun answered).length := by simp
      have longer : coreRun (answered ++ [task]) = coreRun answered ++ [response] := by
        rw [value]
        exact coreRun_concat answered task
      rw [longer, List.map_append, List.zip_append equal, ← answers]
      rfl
    · simpa [performed] using ledger.core

/-- A `stop()` call leaves the account alone. -/
theorem Ledger.frame (ledger : Ledger d pushed executed) (core : next.core = d.core)
    (queue : next.queue = d.queue) (loop : next.loop = d.loop)
    (promises : next.promises = d.promises) : Ledger next pushed executed := by
  obtain ⟨answered, shape, done, answers, open_⟩ := ledger.split
  refine ⟨⟨answered, ?_, ?_, ?_, ?_⟩, ?_, ledger.tickets⟩
  · rw [shape, unanswered, unanswered, loop, queue]
  · rw [done, loop]
  · rw [promises, answers]
  · rw [loop]
    exact open_
  · rw [core, ledger.core]

/-- Every step of the dispatcher and its callers keeps the account. -/
theorem Ledger.step {call : Call} (ledger : Ledger d pushed executed)
    (moved : d.step call = some next) :
    Ledger next (pushed ++ d.submitted call) (executed ++ d.performed call) := by
  cases call with
  | submit owner submission =>
    cases moved
    simpa [submitted, performed] using ledger.submit owner submission
  | loop act => simpa [submitted] using ledger.loop moved
  | stopCall =>
    cases moved
    have entered : Ledger { d with stops := d.stops ++ [.entered] } pushed executed :=
      ledger.frame rfl rfl rfl rfl
    simpa [submitted, performed] using entered
  | stop i act =>
    obtain ⟨core, queue, loop, promises⟩ := stopStep_frame moved
    simpa [submitted, performed] using ledger.frame core queue loop promises

/-- Every run keeps the account, with the tasks pushed and executed along it. -/
theorem Ledger.run {calls : List Call} (ledger : Ledger d pushed executed)
    (reached : Transition.run Dispatcher.step d calls = some next) :
    Ledger next (pushed ++ d.pushedAlong calls) (executed ++ d.performedAlong calls) := by
  induction calls generalizing d pushed executed with
  | nil =>
    obtain rfl := Option.some.inj reached
    simpa [pushedAlong, performedAlong] using ledger
  | cons call rest ih =>
    obtain ⟨middle, moved, onward⟩ := Transition.run_cons.mp reached
    have rests := ih (ledger.step moved) onward
    simpa [pushedAlong, performedAlong, moved, List.append_assoc] using rests

/-- The account of a run from the start. -/
theorem ledger_run {calls : List Call}
    (reached : Transition.run Dispatcher.step {} calls = some d) :
    Ledger d (({} : Dispatcher Promise).pushedAlong calls)
      (({} : Dispatcher Promise).performedAlong calls) := by
  simpa using ledger_initial.run reached

/-- Tasks executed are the first ones pushed. -/
theorem Ledger.executed_prefix (ledger : Ledger d pushed executed) : executed <+: pushed := by
  obtain ⟨answered, shape, done, -, -⟩ := ledger.split
  rw [shape, done]
  apply (List.prefix_append_right_inj answered).mpr
  unfold unanswered
  cases d.loop <;> simp [ran, LoopPc.held]

/-- No two pushed tasks share a promise. -/
theorem Ledger.distinct (ledger : Ledger d pushed executed) :
    (pushed.map Task.prom).Nodup := by
  have tickets : ((pushed.map Task.prom).map Promise.ticket).Nodup := by
    rw [List.map_map]
    exact ledger.tickets ▸ List.nodup_range
  exact List.Nodup.of_map _ tickets

/-- The promises set are the first ones pushed, with the sequential core's answers. -/
theorem Ledger.answers_prefix (ledger : Ledger d pushed executed) :
    d.promises <+: (pushed.map Task.prom).zip (coreRun pushed) := by
  obtain ⟨answered, shape, -, answers, -⟩ := ledger.split
  have more : ∃ tail, coreRun pushed = coreRun answered ++ tail := by
    rw [shape]
    generalize d.unanswered = later
    induction later using List.reverseRecOn with
    | nil => exact ⟨[], by simp⟩
    | append_singleton front last ih =>
      obtain ⟨tail, same⟩ := ih
      rw [← List.append_assoc, coreRun_concat, same, List.append_assoc]
      exact ⟨_, rfl⟩
  obtain ⟨tail, same⟩ := more
  have equal : (answered.map Task.prom).length = (coreRun answered).length := by simp
  rw [same, shape, List.map_append, List.zip_append equal, answers]
  exact List.prefix_append _ _

/-- A set promise holds the sequential core's answer to the task it came with. -/
theorem Ledger.future_own (ledger : Ledger d pushed executed) {place : Nat}
    {task : Task Promise} {response : Response} (pushedAt : pushed[place]? = some task)
    (ready : d.future task.prom = some response) : (coreRun pushed)[place]? = some response := by
  have listed := ledger.answers_prefix.subset (mem_of_future ready)
  obtain ⟨other, inside, same⟩ := List.getElem_of_mem listed
  rw [List.getElem_zip, Prod.mk.injEq, List.getElem_map] at same
  obtain ⟨bound, found⟩ := List.getElem?_eq_some_iff.mp pushedAt
  have equal : other = place := by
    have inside' : other < (pushed.map Task.prom).length := by
      simpa using List.lt_length_left_of_zip inside
    have bound' : place < (pushed.map Task.prom).length := by simpa using bound
    refine (@List.Nodup.getElem_inj_iff _ _ ledger.distinct other inside' place bound').mp ?_
    rw [List.getElem_map, List.getElem_map, same.1, found]
  subst equal
  exact List.getElem?_eq_some_iff.mpr ⟨by simpa using bound, same.2⟩

/-- When nothing waits for an answer, every task pushed so far is executed and has its promise
set. -/
theorem Ledger.drained (ledger : Ledger d pushed executed) (idle : d.unanswered = []) :
    executed = pushed ∧ d.promises.map Prod.fst = pushed.map Task.prom := by
  have empty : d.loop.held = [] ∧ d.queue = [] := List.append_eq_nil_iff.mp idle
  constructor
  · obtain ⟨answered, shape, done, -, -⟩ := ledger.split
    have open_ : ran d.loop = [] := by
      have free := empty.1
      cases held : d.loop <;> simp_all [ran, LoopPc.held]
    rw [shape, done, idle, open_]
  · rw [← ledger.tags_eq]
    simp [tags, empty]

/-- The loop returns only when nothing waits for an answer. -/
theorem unanswered_exit (exits : d.loopStep .exit = some next) : d.unanswered = [] := by
  obtain ⟨_, _, same, -⟩ | ⟨-, waiting, queued, -, -⟩ | ⟨_, same, -⟩ | ⟨_, _, same, -⟩ :=
    loopStep_cases exits
  · cases same
  · simp [unanswered, waiting, queued, LoopPc.held]
  · cases same
  · cases same

/-- Tasks executed along a run in two parts. -/
theorem performedAlong_append {first second : List Call}
    (reached : Transition.run Dispatcher.step d first = some next) :
    d.performedAlong (first ++ second) = d.performedAlong first ++ next.performedAlong second := by
  induction first generalizing d with
  | nil =>
    obtain rfl := Option.some.inj reached
    rfl
  | cons call rest ih =>
    obtain ⟨middle, moved, onward⟩ := Transition.run_cons.mp reached
    simp [performedAlong, moved, ih onward]

/-- Later steps never take back a promise. -/
theorem promises_step {call : Call} (moved : d.step call = some next) :
    d.promises <+: next.promises := by
  obtain ⟨act, -, moved⟩ | ⟨-, same⟩ := step_worker moved
  · obtain ⟨_, _, -, -, -, rfl⟩ | ⟨-, -, -, -, rfl⟩ | ⟨_, -, -, rfl⟩ | ⟨_, _, -, -, rfl⟩ :=
      loopStep_cases moved
    · exact List.prefix_refl _
    · exact List.prefix_refl _
    · exact List.prefix_refl _
    · exact List.prefix_append _ _
  · exact same ▸ List.prefix_refl _

/-- Promises set at one point of a run are set at its end. -/
theorem promises_run {calls : List Call}
    (reached : Transition.run Dispatcher.step d calls = some next) :
    d.promises <+: next.promises :=
  Transition.run_stable (fun state => d.promises <+: state.promises)
    (fun held moved => held.trans (promises_step moved)) (List.prefix_refl _) reached

/-- What was pushed before a moment when nothing waited for an answer stays executed and
answered. -/
theorem settled_of_drained {before after : List Call} {middle : Dispatcher Promise}
    (first : Transition.run Dispatcher.step {} before = some middle)
    (idle : middle.unanswered = [])
    (second : Transition.run Dispatcher.step middle after = some d) {task : Task Promise}
    (pushedBefore : task ∈ ({} : Dispatcher Promise).pushedAlong before) :
    task ∈ ({} : Dispatcher Promise).performedAlong (before ++ after) ∧
      ∃ response, d.future task.prom = some response := by
  have ledger := ledger_run (Transition.run_trans first second)
  have distinct : d.tags.Nodup := ledger.tags_eq ▸ ledger.distinct
  obtain ⟨all, keys⟩ := (ledger_run first).drained idle
  constructor
  · rw [performedAlong_append first, all]
    exact List.mem_append_left _ pushedBefore
  · have member : task.prom ∈ middle.promises.map Prod.fst :=
      keys ▸ List.mem_map_of_mem pushedBefore
    obtain ⟨⟨prom, response⟩, set, rfl⟩ := List.mem_map.mp member
    exact ⟨response, future_of_mem distinct ((promises_run second).subset set)⟩

/-- The dispatcher refines a sequential core. Over any interleaving of submitters, the worker
and `stop()` calls: the promises set are, in order, those of the tasks pushed, with the answers
of one core run over the tasks in push order; a future holds the answer to its own task and is
set once; tasks are executed at most once, in push order, hence each submitter's in its own
order; and once the loop has returned every task pushed before has its promise set. -/
theorem dispatcher_refines_core (calls : List Call) (d : Dispatcher Promise)
    (reached : Transition.run Dispatcher.step {} calls = some d) :
    let tasks := ({} : Dispatcher Promise).pushedAlong calls
    let performed := ({} : Dispatcher Promise).performedAlong calls
    d.promises <+: (tasks.map Task.prom).zip (coreRun tasks) ∧
    d.core = coreAfter performed ∧
    (∀ (place : Nat) (task : Task Promise) (response : Response), tasks[place]? = some task →
      d.future task.prom = some response → (coreRun tasks)[place]? = some response) ∧
    (d.promises.map Prod.fst).Nodup ∧
    performed <+: tasks ∧ performed.Nodup ∧
    (∀ owner, performed.filter (fun task => task.prom.owner = owner) <+:
      tasks.filter (fun task => task.prom.owner = owner)) ∧
    ∀ before after, calls = before ++ .loop .exit :: after →
      ∀ task ∈ ({} : Dispatcher Promise).pushedAlong before,
        task ∈ performed ∧ ∃ response, d.future task.prom = some response := by
  intro tasks performed
  have ledger := ledger_run reached
  have distinct : d.tags.Nodup := ledger.tags_eq ▸ ledger.distinct
  have order : performed <+: tasks := ledger.executed_prefix
  refine ⟨ledger.answers_prefix, ledger.core, fun _ _ _ => ledger.future_own,
    (List.nodup_append.mp distinct).1, order, ?_, fun owner => order.filter _, ?_⟩
  · exact (List.Nodup.of_map _ ledger.distinct).sublist order.sublist
  · intro before after shape task pushedBefore
    subst shape
    rw [Transition.run_append] at reached
    obtain ⟨middle, first, second⟩ := Option.bind_eq_some_iff.mp reached
    obtain ⟨next, exits, -⟩ := Transition.run_cons.mp second
    exact settled_of_drained first (unanswered_exit exits) second pushedBefore

/-- Two submitters, the second after `stop()` has set its flag, and a worker that drains the
queue before it returns. -/
def drainedRun : List Call :=
  [.submit 0 (.sync "init"), .stopCall, .stop 0 .flag, .submit 1 (.startJob 200),
    .loop .take, .loop .execute, .loop .setValue, .loop .take, .loop .execute, .loop .setValue,
    .loop .exit]

/-- Both promises of the drained run are distinct and set, the second to the acceptance the
first one's `INIT` makes possible. -/
theorem drainedRun_refines : ∃ d, Transition.run Dispatcher.step {} drainedRun = some d ∧
    (d.promises.map Prod.fst).Nodup ∧ d.promises.map (fun entry => entry.2.message) =
      ["OK", "ACCEPTED"] := by
  refine ⟨_, rfl, ?_, by decide⟩
  exact (dispatcher_refines_core drainedRun _ rfl).2.2.2.1

end Dispatcher

end QrEdgeGateway
