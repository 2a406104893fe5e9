import QrEdgeGateway.Lib.Progress
import QrEdgeGateway.Verif.MonitorRefinement

/-!
# No wakeup is lost

The worker blocks only while it holds the lock and has found nothing to do, and whoever gives it
something to do notifies afterwards. So a blocked worker has nothing to do, or a notification is
on its way. Every step of the monitor spends part of a rank that only new calls and wakeups
without a reason raise; when nothing can move, every call has returned and the worker has nothing
to do or has returned.
-/

namespace QrEdgeGateway

variable {m next : Monitor} {event : MonitorEvent} {i : Nat}

/-- A `push` behind its access that has still to notify. -/
def PushPc.alerts : PushPc → Bool
  | .unlocking => true
  | .notifying => true
  | _ => false

/-- A `stop` behind its access that has still to notify. -/
def HaltPc.alerts : HaltPc → Bool
  | .unlocking => true
  | .notifying => true
  | _ => false

namespace Monitor

/-- A notification is on its way. -/
def Alerting (m : Monitor) : Prop :=
  Table.Any m.pushes (fun _ call => call.pc.alerts = true) ∨
    Table.Any m.stops fun _ pc => pc.alerts = true

/-- A blocked worker has nothing to do, or a notification is on its way. -/
def Wakes (m : Monitor) : Prop :=
  m.worker = .blocked → (m.stopping = false ∧ m.queue = []) ∨ m.Alerting

/-- After a notification the worker is not blocked. -/
theorem notify_awake : m.notify.worker ≠ .blocked := by
  unfold notify
  split
  · simp
  · assumption

/-- A `push` that keeps its duty to notify leaves the worker to be woken as before. -/
theorem Wakes.pushed {call : PushCall} {pc : PushPc} (wakes : m.Wakes)
    (here : m.pushes[i]? = some call) (duty : call.pc.alerts = true → pc.alerts = true)
    (pushes : next.pushes = m.pushes.set i { call with pc }) (stops : next.stops = m.stops)
    (worker : next.worker = m.worker) (stopping : next.stopping = m.stopping)
    (queue : next.queue = m.queue) : next.Wakes := by
  intro blocked
  rw [worker] at blocked
  rw [stopping, queue, Alerting, pushes, stops]
  obtain idle | alerting | alerting := wakes blocked
  · exact .inl idle
  · exact .inr (.inl (alerting.set here duty))
  · exact .inr (.inr alerting)

/-- So does such a `stop`. -/
theorem Wakes.stopped {old pc : HaltPc} (wakes : m.Wakes) (here : m.stops[i]? = some old)
    (duty : old.alerts = true → pc.alerts = true) (stops : next.stops = m.stops.set i pc)
    (pushes : next.pushes = m.pushes) (worker : next.worker = m.worker)
    (stopping : next.stopping = m.stopping) (queue : next.queue = m.queue) : next.Wakes := by
  intro blocked
  rw [worker] at blocked
  rw [stopping, queue, Alerting, pushes, stops]
  obtain idle | alerting | alerting := wakes blocked
  · exact .inl idle
  · exact .inr (.inl alerting)
  · exact .inr (.inr (alerting.set here duty))

/-- Every step leaves a blocked worker to be woken when it has something to do. -/
theorem Wakes.step (guarded : m.Guarded) (wakes : m.Wakes) (taken : m.step event = some next) :
    next.Wakes := by
  cases (step_move taken).2 with
  | submit owner submission =>
    intro blocked
    exact (wakes blocked).imp_right (Or.imp_left Table.Any.spawn)
  | stopCall =>
    intro blocked
    exact (wakes blocked).imp_right (Or.imp_right Table.Any.spawn)
  | block here =>
    -- what the worker found under the lock is still so when it blocks
    have found := guarded.worker
    rw [here] at found
    exact fun _ => .inl found
  | underflow here empty =>
    intro blocked
    rw [show m.worker = .blocked from blocked] at here
    contradiction
  | lock here free | satisfy here ready | park here calm empty | leave here stopping empty
  | proceed here more | exit here | pop here queued | release here | execute here
  | setValue here | spurious here =>
    intro blocked
    contradiction
  | @pushLock i call here point free =>
    exact wakes.pushed here (by simp [point, PushPc.alerts]) rfl rfl rfl rfl rfl
  | @push i call here point =>
    -- the task is there and its notification is to come
    exact fun _ => .inr (.inl ⟨i, _, Table.get_set_self here, rfl⟩)
  | pushUnlock here point => exact wakes.pushed here (fun _ => rfl) rfl rfl rfl rfl rfl
  | pushNotify here point => exact fun blocked => absurd blocked notify_awake
  | stopLock here free | stopLate here stopping | stopFirst here running | stopLeave here
  | stopJoin here exited =>
    exact wakes.stopped here (by simp [HaltPc.alerts]) rfl rfl rfl rfl rfl
  | stopCheck here => exact wakes.stopped here (by simp [HaltPc.alerts]) rfl rfl rfl rfl rfl
  | @stopSet i here => exact fun _ => .inr (.inr ⟨i, _, Table.get_set_self here, rfl⟩)
  | stopUnlock here => exact wakes.stopped here (fun _ => rfl) rfl rfl rfl rfl rfl
  | stopNotify here => exact fun blocked => absurd blocked notify_awake

/-- The lock protects what is found under it, and no wakeup is lost. -/
def Awake (m : Monitor) : Prop := m.Guarded ∧ m.Wakes

/-- Every step keeps both. -/
theorem Awake.step (awake : m.Awake) (taken : m.step event = some next) : next.Awake :=
  ⟨awake.1.step taken, awake.2.step awake.1 taken⟩

/-- Both hold after every run. -/
theorem awake {events : List MonitorEvent}
    (reached : Transition.run Monitor.step {} events = some m) : m.Awake :=
  Transition.run_stable Awake Awake.step ⟨guarded_initial, fun blocked => by cases blocked⟩
    reached

/-- No wakeup is lost. Over any interleaving of any number of `submit_*` and `stop()` calls with
the worker, wakeups without a reason included: a worker blocked on the condition variable has
nothing to do, that is an empty queue and no flag, or a call that has pushed or set the flag has
still to notify it. -/
theorem no_lost_wakeup (events : List MonitorEvent) (m : Monitor)
    (reached : Transition.run Monitor.step {} events = some m) (blocked : m.worker = .blocked) :
    (m.stopping = false ∧ m.queue = []) ∨
      (∃ (i : Nat) (call : PushCall), m.pushes[i]? = some call ∧ call.pc.alerts = true) ∨
      ∃ (i : Nat) (pc : HaltPc), m.stops[i]? = some pc ∧ pc.alerts = true :=
  (awake reached).2 blocked

/-- The worker has blocked, and a `push` has pushed but not yet notified it. -/
def lateRun : List MonitorEvent :=
  [.worker, .worker, .worker, .submit 0 (.sync "init"), .push 0, .push 0]

/-- The blocked worker of the late run will be woken. -/
theorem lateRun_wakes : ∃ m, Transition.run Monitor.step {} lateRun = some m ∧
    m.queue ≠ [] ∧
    ∃ (i : Nat) (call : PushCall), m.pushes[i]? = some call ∧ call.pc.alerts = true := by
  refine ⟨_, rfl, by decide, ?_⟩
  obtain ⟨-, empty⟩ | pushing | ⟨i, pc, there, -⟩ := no_lost_wakeup lateRun _ rfl rfl
  · exact absurd empty (by decide)
  · exact pushing
  · have absent : ([] : List HaltPc)[i]? = some pc := there
    simp at absent

end Monitor

/-! ## Every schedule completes -/

/-- What the worker can still do by itself, counted in steps. -/
def WorkerPc.rank : WorkerPc → Nat
  | .exited => 0
  | .blocked => 0
  | .parking => 1
  | .leaving => 1
  | .popping => 1
  | .deciding => 2
  | .testing => 3
  | .locking => 4
  | .woken => 4
  | .executed _ _ => 5
  | .taken _ => 6
  | .releasing _ => 7

/-- What a `push` can still do, with the work it makes for the worker. -/
def PushPc.rank : PushPc → Nat
  | .returned => 0
  | .notifying => 5
  | .unlocking => 6
  | .pushing => 15
  | .locking => 16

/-- What a `stop` can still do, with the work it makes for the worker. -/
def HaltPc.rank : HaltPc → Nat
  | .returned => 0
  | .joining => 1
  | .leaving => 1
  | .checking => 2
  | .notifying => 7
  | .unlocking => 8
  | .setting => 9
  | .testing => 10
  | .locking => 11

namespace Monitor

/-- What can still be done without a new call. -/
def rank (m : Monitor) : Nat :=
  m.worker.rank + 8 * m.queue.length + Table.total (fun call => call.pc.rank) m.pushes +
    Table.total HaltPc.rank m.stops

/-- A step of a thread that is there, and not for want of a reason. -/
def own : MonitorEvent → Bool
  | .worker => true
  | .push _ => true
  | .stop _ => true
  | _ => false

/-- A notification gives the worker no more than its way back to the wait. -/
theorem rank_notify : m.notify.worker.rank ≤ m.worker.rank + 4 := by
  unfold notify
  split
  · simp [WorkerPc.rank]
  · exact Nat.le_add_right _ _

/-- A `push` that moves spends rank if it makes less work than it does. -/
theorem rank_push {call : PushCall} {pc : PushPc} (here : m.pushes[i]? = some call)
    (pushes : next.pushes = m.pushes.set i { call with pc }) (stops : next.stops = m.stops)
    (less : next.worker.rank + 8 * next.queue.length + pc.rank <
      m.worker.rank + 8 * m.queue.length + call.pc.rank) : next.rank < m.rank := by
  have trade := Table.total_set (fun call => call.pc.rank) { call with pc } here
  dsimp only at trade
  unfold rank
  rw [pushes, stops]
  omega

/-- So does a `stop`. -/
theorem rank_stop {old pc : HaltPc} (here : m.stops[i]? = some old)
    (stops : next.stops = m.stops.set i pc) (pushes : next.pushes = m.pushes)
    (queue : next.queue = m.queue)
    (less : next.worker.rank + pc.rank < m.worker.rank + old.rank) : next.rank < m.rank := by
  have trade := Table.total_set HaltPc.rank pc here
  unfold rank
  rw [pushes, stops, queue]
  omega

/-- Every step of a thread that is there spends rank. -/
theorem rank_step (guarded : m.Guarded) (mine : own event = true)
    (taken : m.step event = some next) : next.rank < m.rank := by
  cases (step_move taken).2 with
  | submit owner submission | stopCall | spurious here => contradiction
  | lock here free =>
    unfold rank
    obtain here | here := here
    all_goals simp [here, WorkerPc.rank]
  | pop here queued =>
    unfold rank
    simp [here, queued, WorkerPc.rank]
    omega
  | underflow here empty =>
    have found := guarded.worker
    rw [here] at found
    exact absurd empty found
  | satisfy here ready | park here calm empty | leave here stopping empty | proceed here more
  | block here | exit here | release here | execute here | setValue here =>
    unfold rank
    simp [here, WorkerPc.rank]
  | pushLock here point free | pushUnlock here point =>
    exact rank_push here rfl rfl (by simp [point, PushPc.rank, movePush])
  | push here point =>
    refine rank_push here rfl rfl ?_
    simp [point, PushPc.rank, movePush]
    omega
  | pushNotify here point =>
    have more : m.notify.worker.rank ≤ m.worker.rank + 4 := rank_notify
    rw [notify_frame]
    refine rank_push here rfl rfl ?_
    simp only [point, PushPc.rank, movePush]
    omega
  | stopNotify here =>
    have more : m.notify.worker.rank ≤ m.worker.rank + 4 := rank_notify
    rw [notify_frame]
    refine rank_stop here rfl rfl rfl ?_
    simp only [HaltPc.rank, moveStop]
    omega
  | stopCheck here =>
    refine rank_stop here rfl rfl rfl ?_
    simp only [moveStop]
    split <;> simp [HaltPc.rank]
  | stopLock here free | stopLate here stopping | stopFirst here running | stopSet here
  | stopLeave here | stopUnlock here | stopJoin here exited =>
    exact rank_stop here rfl rfl rfl (by simp [HaltPc.rank, moveStop])

/-- Every call has returned, nobody holds the lock, and the worker has nothing to do or has
returned. -/
structure Quiet (m : Monitor) : Prop where
  /-- Every `push` has returned. -/
  pushes : Table.All m.pushes fun _ call => call.pc = .returned
  /-- Every `stop` has returned. -/
  stops : Table.All m.stops fun _ pc => pc = .returned
  /-- The lock is free. -/
  free : m.owner = none
  /-- The worker waits for work that is not there, or is gone. -/
  worker : (m.worker = .blocked ∧ m.stopping = false ∧ m.queue = []) ∨ m.worker = .exited

/-- A worker that cannot move waits for work or for the lock, or is gone. -/
theorem workerStep_none (still : m.workerStep = none) :
    m.worker = .blocked ∨ m.worker = .exited ∨ (m.owner ≠ none ∧ m.worker.holds = false) := by
  unfold workerStep at still
  split at still
  · rename_i here
    refine .inr (.inr ⟨fun free => ?_, by simp [here, WorkerPc.holds]⟩)
    simp [lock, free] at still
  · contradiction
  · contradiction
  · rename_i here
    exact .inl here
  · rename_i here
    refine .inr (.inr ⟨fun free => ?_, by simp [here, WorkerPc.holds]⟩)
    simp [lock, free] at still
  · contradiction
  · contradiction
  · split at still <;> contradiction
  · contradiction
  · contradiction
  · contradiction
  · rename_i here
    exact .inr (.inl here)

/-- A `push` that cannot move waits for the lock or has returned. -/
theorem pushStep_none {call : PushCall} (still : m.pushStep i call = none) :
    call.pc = .returned ∨ (m.owner ≠ none ∧ call.pc.holds = false) := by
  unfold pushStep at still
  split at still
  · rename_i here
    refine .inr ⟨fun free => ?_, by simp [here, PushPc.holds]⟩
    simp [lock, free] at still
  · contradiction
  · contradiction
  · contradiction
  · rename_i here
    exact .inl here

/-- A `stop` that cannot move waits for the lock or for the worker, or has returned. -/
theorem stopStep_none {pc : HaltPc} (still : m.stopStep i pc = none) :
    pc = .returned ∨ (pc = .joining ∧ m.worker ≠ .exited) ∨
      (m.owner ≠ none ∧ pc.holds = false) := by
  cases pc with
  | locking =>
    refine .inr (.inr ⟨fun free => ?_, rfl⟩)
    simp [stopStep, lock, free] at still
  | joining =>
    refine .inr (.inl ⟨rfl, fun exited => ?_⟩)
    simp [stopStep, exited] at still
  | returned => exact .inl rfl
  | _ => contradiction

/-- A monitor in which nothing can move is quiet. -/
theorem Quiet.of_stuck (awake : m.Awake)
    (stuck : Transition.Stuck Monitor.step (fun event => own event = true) m) : m.Quiet := by
  obtain ⟨guarded, wakes⟩ := awake
  have sound := guarded.sound
  have worker := workerStep_none (by simpa [step, sound] using stuck .worker rfl)
  have pushes : ∀ {i : Nat} {call : PushCall}, m.pushes[i]? = some call →
      call.pc = .returned ∨ (m.owner ≠ none ∧ call.pc.holds = false) := by
    intro i call here
    exact pushStep_none (by simpa [step, sound, here] using stuck (.push i) rfl)
  have stops : ∀ {i : Nat} {pc : HaltPc}, m.stops[i]? = some pc →
      pc = .returned ∨ (pc = .joining ∧ m.worker ≠ .exited) ∨
        (m.owner ≠ none ∧ pc.holds = false) := by
    intro i pc here
    exact stopStep_none (by simpa [step, sound, here] using stuck (.stop i) rfl)
  -- whoever held the lock could move
  have free : m.owner = none := by
    cases owner : m.owner with
    | none => rfl
    | some party =>
      have inside : m.held party = true := (guarded.exclusive party).mpr owner
      cases party with
      | worker =>
        have mine : m.worker.holds = true := inside
        obtain same | same | ⟨-, outside⟩ := worker
        · simp [same, WorkerPc.holds] at mine
        · simp [same, WorkerPc.holds] at mine
        · rw [outside] at mine
          contradiction
      | pusher i =>
        cases here : m.pushes[i]? with
        | none => simp [held, here] at inside
        | some call =>
          have mine : call.pc.holds = true := by simpa [held, here] using inside
          obtain same | ⟨-, outside⟩ := pushes here
          · simp [same, PushPc.holds] at mine
          · rw [outside] at mine
            contradiction
      | stopper i =>
        cases here : m.stops[i]? with
        | none => simp [held, here] at inside
        | some pc =>
          have mine : pc.holds = true := by simpa [held, here] using inside
          obtain rfl | ⟨rfl, -⟩ | ⟨-, outside⟩ := stops here
          · contradiction
          · contradiction
          · rw [outside] at mine
            contradiction
  have pushed : Table.All m.pushes fun _ call => call.pc = .returned := by
    intro i call here
    obtain returned | ⟨locked, -⟩ := pushes here
    · exact returned
    · exact absurd free locked
  have joining : ∀ {i : Nat} {pc : HaltPc}, m.stops[i]? = some pc →
      pc = .returned ∨ (pc = .joining ∧ m.worker ≠ .exited) := by
    intro i pc here
    obtain returned | joins | ⟨locked, -⟩ := stops here
    · exact .inl returned
    · exact .inr joins
    · exact absurd free locked
  -- nobody has still to notify
  have calm : ¬ m.Alerting := by
    rintro (⟨i, call, here, alerts⟩ | ⟨i, pc, here, alerts⟩)
    · rw [pushed i call here] at alerts
      contradiction
    · obtain rfl | ⟨rfl, -⟩ := joining here <;> contradiction
  obtain blocked | exited | ⟨locked, -⟩ := worker
  · obtain idle | alerting := wakes blocked
    · refine ⟨pushed, fun i pc here => ?_, free, .inl ⟨blocked, idle⟩⟩
      obtain returned | ⟨rfl, -⟩ := joining here
      · exact returned
      · have flagged : m.stopping = true := guarded.stops _ _ here
        rw [idle.1] at flagged
        contradiction
    · exact absurd alerting calm
  · refine ⟨pushed, fun i pc here => ?_, free, .inr exited⟩
    obtain returned | ⟨-, running⟩ := joining here
    · exact returned
    · exact absurd exited running
  · exact absurd free locked

/-- Every schedule completes. After any run of the monitor, let the threads that are there move
in any order, with no new call and no wakeup without a reason: they take at most as many steps
as the rank of the state, and when none of them can move, every `submit_*` and `stop()` call has
returned, the lock is free, and the worker is blocked with nothing to do or has returned. There
is no deadlock, whatever the schedule. -/
theorem every_schedule_completes (before events : List MonitorEvent) (m n : Monitor)
    (reached : Transition.run Monitor.step {} before = some m)
    (onward : Transition.run Monitor.step m events = some n)
    (mine : ∀ event ∈ events, own event = true) :
    events.length + n.rank ≤ m.rank ∧
      ((∀ event, own event = true → n.step event = none) → n.Quiet) := by
  have start := awake reached
  constructor
  · exact Transition.length_le_rank (fun event => own event = true) Awake rank Awake.step
      (fun held its taken => rank_step held.1 its taken) start onward mine
  · exact Quiet.of_stuck (Transition.run_stable Awake Awake.step start onward)

/-- A `stop` is called while a task is queued. -/
def stoppingRun : List MonitorEvent :=
  [.submit 0 (.sync "init"), .push 0, .push 0, .push 0, .push 0, .stopCall, .stop 0]

/-- The threads of the stopping run, to the end. -/
def stoppingRest : List MonitorEvent :=
  List.replicate 5 (.stop 0) ++ List.replicate 11 .worker ++ [.stop 0]

/-- The stopping run comes to its end: the task is answered and the call has returned. -/
theorem stoppingRun_completes : ∃ m n, Transition.run Monitor.step {} stoppingRun = some m ∧
    Transition.run Monitor.step m stoppingRest = some n ∧ 17 + n.rank ≤ m.rank ∧
    n.promises.length = 1 ∧ n.stops = [.returned] := by
  refine ⟨_, _, rfl, rfl, ?_, by decide, by decide⟩
  exact (every_schedule_completes stoppingRun stoppingRest _ _ rfl rfl (by decide)).1

end Monitor

end QrEdgeGateway
