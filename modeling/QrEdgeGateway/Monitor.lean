import QrEdgeGateway.Dispatcher
import QrEdgeGateway.Lib.Table

/-!
# The dispatcher's monitor

The model of the dispatcher takes each critical section of `m_` as one step and the wait on
`cv_` as a guard. Here the lock and the condition variable are as the code uses them: a lock is
taken and released in steps of its own, every access under it is a step, and
`cv_.wait(lk, predicate)` is its loop: test the predicate, release the lock and block, be woken
by a notification or for no reason, take the lock again. A `push` and a `stop` notify after
they have released the lock.

Taking the front of an empty queue is undefined; a state records it.
-/

namespace QrEdgeGateway

/-- Who can hold `m_`. -/
inductive Party where
  /-- The worker thread. -/
  | worker
  /-- A thread inside `push`. -/
  | pusher (i : Nat)
  /-- A thread inside `stop`. -/
  | stopper (i : Nat)
  deriving DecidableEq, Repr

/-- Control point of `Dispatcher::loop`. -/
inductive WorkerPc where
  /-- At the construction of `lk`. -/
  | locking
  /-- At the predicate of the wait, with the lock. -/
  | testing
  /-- The predicate is false; about to release the lock and block. -/
  | parking
  /-- Blocked on `cv_`. -/
  | blocked
  /-- Woken; about to take the lock again. -/
  | woken
  /-- At `if (stopping_ && q_.empty())`, with the lock. -/
  | deciding
  /-- At `return`, with the lock. -/
  | leaving
  /-- At `q_.front()` and `q_.pop()`, with the lock. -/
  | popping
  /-- At the end of the critical section, with the lock. -/
  | releasing (task : Task Promise)
  /-- A task has been popped and the lock released. -/
  | taken (task : Task Promise)
  /-- The core operation has returned. -/
  | executed (task : Task Promise) (response : Response)
  /-- The loop has returned. -/
  | exited
  deriving DecidableEq, Repr

/-- Control point of `Dispatcher::push`. -/
inductive PushPc where
  /-- At the construction of `lk`. -/
  | locking
  /-- At `q_.push`, with the lock. -/
  | pushing
  /-- At the end of the critical section, with the lock. -/
  | unlocking
  /-- At `cv_.notify_one()`. -/
  | notifying
  /-- Returned. -/
  | returned
  deriving DecidableEq, Repr

/-- Control point of `Dispatcher::stop`. -/
inductive HaltPc where
  /-- At the construction of `lk`. -/
  | locking
  /-- At `if (stopping_)`, with the lock. -/
  | testing
  /-- At `stopping_ = true`, with the lock. -/
  | setting
  /-- At the early `return`, with the lock. -/
  | leaving
  /-- At the end of the critical section, with the lock. -/
  | unlocking
  /-- At `cv_.notify_all()`. -/
  | notifying
  /-- At `worker_.joinable()`. -/
  | checking
  /-- Inside `worker_.join()`. -/
  | joining
  /-- Returned. -/
  | returned
  deriving DecidableEq, Repr

/-- One `submit_*` call. -/
structure PushCall where
  /-- The submitting thread. -/
  owner : Nat
  /-- What it submits. -/
  submission : Submission
  /-- Where it is. -/
  pc : PushPc := .locking
  deriving DecidableEq, Repr

/-- The task it pushes; its promise is named by its place in the order of pushes. -/
def PushCall.task (call : PushCall) (ticket : Nat) : Task Promise :=
  call.submission.task (Promise.mk call.owner ticket)

/-- The worker holds the lock. -/
def WorkerPc.holds : WorkerPc → Bool
  | .testing => true
  | .parking => true
  | .deciding => true
  | .leaving => true
  | .popping => true
  | .releasing _ => true
  | _ => false

/-- A `push` holds the lock. -/
def PushPc.holds : PushPc → Bool
  | .pushing => true
  | .unlocking => true
  | _ => false

/-- A `stop` holds the lock. -/
def HaltPc.holds : HaltPc → Bool
  | .testing => true
  | .setting => true
  | .leaving => true
  | .unlocking => true
  | _ => false

/-- The worker, with the steps of its critical section taken as one. -/
def WorkerPc.view : WorkerPc → LoopPc Promise
  | .releasing task => .taken task
  | .taken task => .taken task
  | .executed task response => .executed task response
  | .exited => .exited
  | _ => .waiting

/-- A `stop`, with the steps of its critical section taken as one. -/
def HaltPc.view : HaltPc → StopPc
  | .locking => .entered
  | .testing => .entered
  | .setting => .entered
  | .leaving => .returned
  | .unlocking => .flagged
  | .notifying => .flagged
  | .checking => .flagged
  | .joining => .joining
  | .returned => .returned

/-- `app::Dispatcher` with its lock and its condition variable. -/
structure Monitor where
  /-- `core_`. -/
  core : Core := {}
  /-- `q_`. -/
  queue : List (Task Promise) := []
  /-- `stopping_`. -/
  stopping : Bool := false
  /-- `worker_.joinable()`. -/
  joinable : Bool := true
  /-- The promises set so far, in order, with their values. -/
  promises : List (Promise × Response) := []
  /-- Who holds `m_`. -/
  owner : Option Party := none
  /-- Where the worker thread is. -/
  worker : WorkerPc := .locking
  /-- The `submit_*` calls made so far. -/
  pushes : List PushCall := []
  /-- The `stop()` calls made so far. -/
  stops : List HaltPc := []
  /-- The front of an empty queue was taken. -/
  faulted : Bool := false
  deriving Repr

/-- One step of the monitor. -/
inductive MonitorEvent where
  /-- A thread calls `submit_*`. -/
  | submit (owner : Nat) (submission : Submission)
  /-- A thread calls `stop()`. -/
  | stopCall
  /-- The worker moves. -/
  | worker
  /-- The `push` number `i` moves. -/
  | push (i : Nat)
  /-- The `stop` number `i` moves. -/
  | stop (i : Nat)
  /-- The worker is woken without a notification. -/
  | spurious
  deriving DecidableEq, Repr

namespace Monitor

/-- The dispatcher whose critical sections are single steps. -/
def view (m : Monitor) : Dispatcher Promise :=
  { core := m.core, queue := m.queue, stopping := m.stopping, loop := m.worker.view,
    joinable := m.joinable, promises := m.promises, stops := m.stops.map HaltPc.view }

/-- Take the lock. -/
def lock (m : Monitor) (party : Party) : Option Monitor :=
  if m.owner = none then some { m with owner := some party } else none

/-- `notify_one` and `notify_all`: the worker is the only one to wait on `cv_`. -/
def notify (m : Monitor) : Monitor :=
  if m.worker = .blocked then { m with worker := .woken } else m

/-- One step of the worker. -/
def workerStep (m : Monitor) : Option Monitor :=
  match m.worker with
  | .locking => (m.lock .worker).map fun m => { m with worker := .testing }
  | .testing =>
    some { m with worker := if m.stopping || !m.queue.isEmpty then .deciding else .parking }
  | .parking => some { m with owner := none, worker := .blocked }
  | .blocked => none
  | .woken => (m.lock .worker).map fun m => { m with worker := .testing }
  | .deciding =>
    some { m with worker := if m.stopping && m.queue.isEmpty then .leaving else .popping }
  | .leaving => some { m with owner := none, worker := .exited }
  | .popping =>
    match m.queue with
    | task :: rest => some { m with queue := rest, worker := .releasing task }
    | [] => some { m with faulted := true }
  | .releasing task => some { m with owner := none, worker := .taken task }
  | .taken task =>
    let (core, response) := task.execute m.core
    some { m with core, worker := .executed task response }
  | .executed task response =>
    some { m with worker := .locking, promises := m.promises ++ [(task.prom, response)] }
  | .exited => none

/-- Move a `push` to its next control point. -/
def movePush (m : Monitor) (i : Nat) (call : PushCall) (pc : PushPc) : Monitor :=
  { m with pushes := m.pushes.set i { call with pc } }

/-- One step of the `push` number `i`. -/
def pushStep (m : Monitor) (i : Nat) (call : PushCall) : Option Monitor :=
  match call.pc with
  | .locking => (m.lock (.pusher i)).map fun m => m.movePush i call .pushing
  | .pushing =>
    some ({ m with queue := m.queue ++ [call.task m.view.tags.length] }.movePush i call
      .unlocking)
  | .unlocking => some ({ m with owner := none }.movePush i call .notifying)
  | .notifying => some (m.notify.movePush i call .returned)
  | .returned => none

/-- Move a `stop` to its next control point. -/
def moveStop (m : Monitor) (i : Nat) (pc : HaltPc) : Monitor :=
  { m with stops := m.stops.set i pc }

/-- One step of the `stop` number `i`. -/
def stopStep (m : Monitor) (i : Nat) : HaltPc → Option Monitor
  | .locking => (m.lock (.stopper i)).map fun m => m.moveStop i .testing
  | .testing => some (m.moveStop i (if m.stopping then .leaving else .setting))
  | .setting => some ({ m with stopping := true }.moveStop i .unlocking)
  | .leaving => some ({ m with owner := none }.moveStop i .returned)
  | .unlocking => some ({ m with owner := none }.moveStop i .notifying)
  | .notifying => some (m.notify.moveStop i .checking)
  | .checking => some (m.moveStop i (if m.joinable then .joining else .returned))
  | .joining =>
    if m.worker = .exited then some ({ m with joinable := false }.moveStop i .returned) else none
  | .returned => none

/-- One step of the monitor. -/
def step (m : Monitor) (event : MonitorEvent) : Option Monitor :=
  if m.faulted then none
  else match event with
    | .submit owner submission => some { m with pushes := m.pushes ++ [{ owner, submission }] }
    | .stopCall => some { m with stops := m.stops ++ [.locking] }
    | .worker => m.workerStep
    | .push i =>
      match m.pushes[i]? with
      | some call => m.pushStep i call
      | none => none
    | .stop i =>
      match m.stops[i]? with
      | some pc => m.stopStep i pc
      | none => none
    | .spurious => if m.worker = .blocked then some { m with worker := .woken } else none

/-- What one step of the monitor can be. Every guard of the step function is a premise. -/
inductive Move (m : Monitor) : MonitorEvent → Monitor → Prop where
  /-- A `push` begins. -/
  | submit (owner : Nat) (submission : Submission) :
      Move m (.submit owner submission) { m with pushes := m.pushes ++ [{ owner, submission }] }
  /-- A `stop` begins. -/
  | stopCall : Move m .stopCall { m with stops := m.stops ++ [.locking] }
  /-- The worker takes the lock. -/
  | lock (here : m.worker = .locking ∨ m.worker = .woken) (free : m.owner = none) :
      Move m .worker { m with owner := some .worker, worker := .testing }
  /-- The predicate holds. -/
  | satisfy (here : m.worker = .testing) (ready : m.stopping = true ∨ m.queue ≠ []) :
      Move m .worker { m with worker := .deciding }
  /-- The predicate does not hold. -/
  | park (here : m.worker = .testing) (calm : m.stopping = false) (empty : m.queue = []) :
      Move m .worker { m with worker := .parking }
  /-- The worker releases the lock and blocks. -/
  | block (here : m.worker = .parking) :
      Move m .worker { m with owner := none, worker := .blocked }
  /-- The loop is to return. -/
  | leave (here : m.worker = .deciding) (stopping : m.stopping = true) (empty : m.queue = []) :
      Move m .worker { m with worker := .leaving }
  /-- A task is to be popped. -/
  | proceed (here : m.worker = .deciding) (more : m.stopping = false ∨ m.queue ≠ []) :
      Move m .worker { m with worker := .popping }
  /-- The loop returns. -/
  | exit (here : m.worker = .leaving) :
      Move m .worker { m with owner := none, worker := .exited }
  /-- A task is popped. -/
  | pop {task : Task Promise} {rest : List (Task Promise)} (here : m.worker = .popping)
      (queued : m.queue = task :: rest) :
      Move m .worker { m with queue := rest, worker := .releasing task }
  /-- There is nothing to pop. -/
  | underflow (here : m.worker = .popping) (empty : m.queue = []) :
      Move m .worker { m with faulted := true }
  /-- The worker releases the lock. -/
  | release {task : Task Promise} (here : m.worker = .releasing task) :
      Move m .worker { m with owner := none, worker := .taken task }
  /-- The core operation of the held task. -/
  | execute {task : Task Promise} (here : m.worker = .taken task) :
      Move m .worker { m with core := (task.execute m.core).1,
                              worker := .executed task (task.execute m.core).2 }
  /-- The promise is set. -/
  | setValue {task : Task Promise} {response : Response}
      (here : m.worker = .executed task response) :
      Move m .worker
        { m with worker := .locking, promises := m.promises ++ [(task.prom, response)] }
  /-- The worker wakes for no reason. -/
  | spurious (here : m.worker = .blocked) : Move m .spurious { m with worker := .woken }
  /-- A `push` takes the lock. -/
  | pushLock {i : Nat} {call : PushCall} (here : m.pushes[i]? = some call)
      (point : call.pc = .locking) (free : m.owner = none) :
      Move m (.push i) ({ m with owner := some (.pusher i) }.movePush i call .pushing)
  /-- A task is pushed. -/
  | push {i : Nat} {call : PushCall} (here : m.pushes[i]? = some call)
      (point : call.pc = .pushing) :
      Move m (.push i)
        ({ m with queue := m.queue ++ [call.task m.view.tags.length] }.movePush i call
          .unlocking)
  /-- A `push` releases the lock. -/
  | pushUnlock {i : Nat} {call : PushCall} (here : m.pushes[i]? = some call)
      (point : call.pc = .unlocking) :
      Move m (.push i) ({ m with owner := none }.movePush i call .notifying)
  /-- A `push` notifies and returns. -/
  | pushNotify {i : Nat} {call : PushCall} (here : m.pushes[i]? = some call)
      (point : call.pc = .notifying) :
      Move m (.push i) (m.notify.movePush i call .returned)
  /-- A `stop` takes the lock. -/
  | stopLock {i : Nat} (here : m.stops[i]? = some .locking) (free : m.owner = none) :
      Move m (.stop i) ({ m with owner := some (.stopper i) }.moveStop i .testing)
  /-- A `stop` finds the flag set. -/
  | stopLate {i : Nat} (here : m.stops[i]? = some .testing) (stopping : m.stopping = true) :
      Move m (.stop i) (m.moveStop i .leaving)
  /-- A `stop` finds the flag clear. -/
  | stopFirst {i : Nat} (here : m.stops[i]? = some .testing) (running : m.stopping = false) :
      Move m (.stop i) (m.moveStop i .setting)
  /-- The flag is set. -/
  | stopSet {i : Nat} (here : m.stops[i]? = some .setting) :
      Move m (.stop i) ({ m with stopping := true }.moveStop i .unlocking)
  /-- A late `stop` releases the lock and returns. -/
  | stopLeave {i : Nat} (here : m.stops[i]? = some .leaving) :
      Move m (.stop i) ({ m with owner := none }.moveStop i .returned)
  /-- A `stop` releases the lock. -/
  | stopUnlock {i : Nat} (here : m.stops[i]? = some .unlocking) :
      Move m (.stop i) ({ m with owner := none }.moveStop i .notifying)
  /-- A `stop` notifies. -/
  | stopNotify {i : Nat} (here : m.stops[i]? = some .notifying) :
      Move m (.stop i) (m.notify.moveStop i .checking)
  /-- A `stop` looks at the handle. -/
  | stopCheck {i : Nat} (here : m.stops[i]? = some .checking) :
      Move m (.stop i) (m.moveStop i (if m.joinable then .joining else .returned))
  /-- A `stop` joins the worker. -/
  | stopJoin {i : Nat} (here : m.stops[i]? = some .joining) (exited : m.worker = .exited) :
      Move m (.stop i) ({ m with joinable := false }.moveStop i .returned)

variable {m next : Monitor} {event : MonitorEvent}

/-- The lock is taken only while nobody holds it. -/
theorem lock_some {party : Party} (taken : m.lock party = some next) :
    m.owner = none ∧ next = { m with owner := some party } := by
  unfold lock at taken
  split at taken
  · rename_i free
    exact ⟨free, (Option.some.inj taken).symm⟩
  · contradiction

/-- A step of the worker is one of its moves. -/
theorem workerStep_move (moved : m.workerStep = some next) : Move m .worker next := by
  unfold workerStep at moved
  split at moved
  · rename_i here
    obtain ⟨locked, taken, rfl⟩ := Option.map_eq_some_iff.mp moved
    obtain ⟨free, rfl⟩ := lock_some taken
    exact .lock (.inl here) free
  · rename_i here
    cases moved
    by_cases ready : m.stopping = true ∨ m.queue ≠ []
    · have test : (m.stopping || !m.queue.isEmpty) = true := by simpa using ready
      simpa only [test, if_true] using Move.satisfy here ready
    · have test : (m.stopping || !m.queue.isEmpty) = false := by simpa using ready
      obtain ⟨calm, empty⟩ := not_or.mp ready
      simpa only [test, Bool.false_eq_true, if_false] using
        Move.park here (by simpa using calm) (by simpa using empty)
  · rename_i here
    cases moved
    exact .block here
  · contradiction
  · rename_i here
    obtain ⟨locked, taken, rfl⟩ := Option.map_eq_some_iff.mp moved
    obtain ⟨free, rfl⟩ := lock_some taken
    exact .lock (.inr here) free
  · rename_i here
    cases moved
    by_cases last : m.stopping = true ∧ m.queue = []
    · have test : (m.stopping && m.queue.isEmpty) = true := by simpa using last
      simpa only [test, if_true] using Move.leave here last.1 last.2
    · have test : (m.stopping && m.queue.isEmpty) = false := by simpa using last
      have more : m.stopping = false ∨ m.queue ≠ [] := by
        rw [Classical.not_and_iff_not_or_not] at last
        simpa using last
      simpa only [test, Bool.false_eq_true, if_false] using Move.proceed here more
  · rename_i here
    cases moved
    exact .exit here
  · rename_i here
    split at moved
    · rename_i task rest queued
      cases moved
      exact .pop here queued
    · rename_i empty
      cases moved
      exact .underflow here empty
  · rename_i task here
    cases moved
    exact .release here
  · rename_i task here
    cases moved
    exact .execute here
  · rename_i task response here
    cases moved
    exact .setValue here
  · contradiction

/-- A step of a `push` is one of its moves. -/
theorem pushStep_move {i : Nat} {call : PushCall} (here : m.pushes[i]? = some call)
    (moved : m.pushStep i call = some next) : Move m (.push i) next := by
  unfold pushStep at moved
  split at moved
  · rename_i point
    obtain ⟨locked, taken, rfl⟩ := Option.map_eq_some_iff.mp moved
    obtain ⟨free, rfl⟩ := lock_some taken
    exact .pushLock here point free
  · rename_i point
    cases moved
    exact .push here point
  · rename_i point
    cases moved
    exact .pushUnlock here point
  · rename_i point
    cases moved
    exact .pushNotify here point
  · contradiction

/-- A step of a `stop` is one of its moves. -/
theorem stopStep_move {i : Nat} {pc : HaltPc} (here : m.stops[i]? = some pc)
    (moved : m.stopStep i pc = some next) : Move m (.stop i) next := by
  cases pc with
  | locking =>
    obtain ⟨locked, taken, rfl⟩ := Option.map_eq_some_iff.mp moved
    obtain ⟨free, rfl⟩ := lock_some taken
    exact .stopLock here free
  | testing =>
    cases moved
    cases flag : m.stopping with
    | true => exact .stopLate here flag
    | false => exact .stopFirst here flag
  | setting =>
    cases moved
    exact .stopSet here
  | leaving =>
    cases moved
    exact .stopLeave here
  | unlocking =>
    cases moved
    exact .stopUnlock here
  | notifying =>
    cases moved
    exact .stopNotify here
  | checking =>
    cases moved
    exact .stopCheck here
  | joining =>
    simp only [stopStep] at moved
    split at moved
    · rename_i exited
      cases moved
      exact .stopJoin here exited
    · contradiction
  | returned => contradiction

/-- Every step of the monitor is one of its moves, and none follows a fault. -/
theorem step_move (taken : m.step event = some next) :
    m.faulted = false ∧ Move m event next := by
  unfold step at taken
  split at taken
  · contradiction
  · rename_i sound
    refine ⟨by simpa using sound, ?_⟩
    split at taken
    · cases taken
      exact .submit _ _
    · cases taken
      exact .stopCall
    · exact workerStep_move taken
    · split at taken
      · rename_i call here
        exact pushStep_move here taken
      · contradiction
    · split at taken
      · rename_i pc here
        exact stopStep_move here taken
      · contradiction
    · split at taken
      · rename_i here
        cases taken
        exact .spurious here
      · contradiction

end Monitor

end QrEdgeGateway
