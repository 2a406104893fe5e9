import QrEdgeGateway.Lib.Refinement
import QrEdgeGateway.Monitor
import QrEdgeGateway.Verif.SerialCore

/-!
# The monitor refines the dispatcher

Whoever is inside a critical section holds the lock, so what a party has read under the lock is
still so when it acts on it: the flag it found clear, the queue it found non-empty. The steps of
a critical section therefore have one effect together, and a run of the monitor means a run of
the dispatcher whose critical sections are single steps.
-/

namespace QrEdgeGateway

variable {m next : Monitor} {event : MonitorEvent} {party : Party} {i : Nat}

namespace Monitor

/-! ## The lock -/

/-- The party is inside a critical section. -/
def held (m : Monitor) : Party → Bool
  | .worker => m.worker.holds
  | .pusher i => m.pushes[i]?.any fun call => call.pc.holds
  | .stopper i => m.stops[i]?.any HaltPc.holds

/-- The lock is with the party inside a critical section. -/
def Exclusive (m : Monitor) : Prop := ∀ party, m.held party = true ↔ m.owner = some party

/-- A move of the worker is seen at the worker only. -/
theorem held_work (pushes : next.pushes = m.pushes) (stops : next.stops = m.stops) :
    next.held party = if party = .worker then next.worker.holds else m.held party := by
  cases party <;> simp [held, pushes, stops]

/-- A move of a `push` is seen at its own place only. -/
theorem held_push {call : PushCall} {pc : PushPc} (here : m.pushes[i]? = some call)
    (pushes : next.pushes = m.pushes.set i { call with pc }) (stops : next.stops = m.stops)
    (worker : next.worker.holds = m.worker.holds) :
    next.held party = if party = .pusher i then pc.holds else m.held party := by
  cases party with
  | worker => simp [held, worker]
  | stopper j => simp [held, stops]
  | pusher j =>
    by_cases same : j = i
    · subst same
      simp [held, pushes, Table.get_set_self here]
    · simp [held, pushes, Table.get_set_other same, same]

/-- A move of a `stop` is seen at its own place only. -/
theorem held_stop {old pc : HaltPc} (here : m.stops[i]? = some old)
    (stops : next.stops = m.stops.set i pc) (pushes : next.pushes = m.pushes)
    (worker : next.worker.holds = m.worker.holds) :
    next.held party = if party = .stopper i then pc.holds else m.held party := by
  cases party with
  | worker => simp [held, worker]
  | pusher j => simp [held, pushes]
  | stopper j =>
    by_cases same : j = i
    · subst same
      simp [held, stops, Table.get_set_self here]
    · simp [held, stops, Table.get_set_other same, same]

/-- Waking the worker does not let it into a critical section. -/
theorem notify_holds : m.notify.worker.holds = m.worker.holds := by
  unfold notify
  split
  · rename_i blocked
    simp [blocked, WorkerPc.holds]
  · rfl

/-- A notification touches nothing but the worker. -/
theorem notify_frame : m.notify = { m with worker := m.notify.worker } := by
  unfold notify
  split <;> rfl

/-- While one party is inside a critical section, no other is. -/
theorem Exclusive.alone (exclusive : m.Exclusive) (inside : m.held party = true) (other : Party)
    (apart : other ≠ party) : m.held other = false := by
  cases also : m.held other with
  | false => rfl
  | true =>
    have first : m.owner = some party := (exclusive party).mp inside
    have second : m.owner = some other := (exclusive other).mp also
    rw [first] at second
    exact absurd (Option.some.inj second).symm apart

/-- While the lock is free, nobody is inside a critical section. -/
theorem Exclusive.outside (exclusive : m.Exclusive) (free : m.owner = none) :
    m.held party = false := by
  cases inside : m.held party with
  | false => rfl
  | true =>
    have locked : m.owner = some party := (exclusive party).mp inside
    rw [free] at locked
    contradiction

/-- A party stays where it is, takes the free lock and goes in, or goes out and frees it. -/
theorem Exclusive.move {inside : Bool} (party : Party) (exclusive : m.Exclusive)
    (seen : ∀ other, next.held other = if other = party then inside else m.held other)
    (lock : (inside = m.held party ∧ next.owner = m.owner) ∨
      (inside = true ∧ m.owner = none ∧ next.owner = some party) ∨
      (inside = false ∧ m.held party = true ∧ next.owner = none)) : next.Exclusive := by
  intro other
  rw [seen]
  obtain ⟨rfl, owner⟩ | ⟨rfl, free, owner⟩ | ⟨rfl, mine, owner⟩ := lock
  · rw [owner, ← exclusive other]
    by_cases same : other = party
    · simp [same]
    · simp [same]
  · rw [owner]
    by_cases same : other = party
    · simp [same]
    · simp [same, exclusive.outside free, Ne.symm same]
  · rw [owner]
    by_cases same : other = party
    · simp [same]
    · simp [same, exclusive.alone mine other same]

/-- A call that begins is outside. -/
theorem Exclusive.arrive (exclusive : m.Exclusive) (owner : next.owner = m.owner)
    (worker : next.worker = m.worker)
    (pushes : next.pushes = m.pushes ∨
      ∃ call : PushCall, call.pc = .locking ∧ next.pushes = m.pushes ++ [call])
    (stops : next.stops = m.stops ∨ next.stops = m.stops ++ [.locking]) : next.Exclusive := by
  have same : ∀ other, next.held other = m.held other := by
    intro other
    cases other with
    | worker => simp [held, worker]
    | pusher j =>
      obtain same | ⟨call, begins, same⟩ := pushes
      · simp [held, same]
      · rw [held, held, same]
        exact Table.get_spawn_any (by simp [begins, PushPc.holds])
    | stopper j =>
      obtain same | same := stops
      · simp [held, same]
      · rw [held, held, same]
        exact Table.get_spawn_any rfl
  intro other
  rw [same, owner]
  exact exclusive other

/-- Every step leaves the lock with the party inside a critical section. -/
theorem Exclusive.step (exclusive : m.Exclusive) (taken : m.step event = some next) :
    next.Exclusive := by
  cases (step_move taken).2 with
  | submit owner submission =>
    exact exclusive.arrive rfl rfl (.inr ⟨{ owner, submission }, rfl, rfl⟩) (.inl rfl)
  | stopCall => exact exclusive.arrive rfl rfl (.inl rfl) (.inr rfl)
  | lock here free =>
    exact exclusive.move .worker (fun _ => held_work rfl rfl) (.inr (.inl ⟨rfl, free, rfl⟩))
  | block here | exit here =>
    refine exclusive.move .worker (fun _ => held_work rfl rfl) ?_
    exact .inr (.inr ⟨rfl, by simp [held, here, WorkerPc.holds], rfl⟩)
  | release here =>
    refine exclusive.move .worker (fun _ => held_work rfl rfl) ?_
    exact .inr (.inr ⟨rfl, by simp [held, here, WorkerPc.holds], rfl⟩)
  | underflow here empty =>
    exact exclusive.move .worker (fun _ => held_work rfl rfl) (.inl ⟨rfl, rfl⟩)
  | satisfy here ready | park here calm empty | leave here stopping empty | proceed here more =>
    refine exclusive.move .worker (fun _ => held_work rfl rfl) ?_
    exact .inl ⟨by simp [held, here, WorkerPc.holds], rfl⟩
  | pop here queued =>
    refine exclusive.move .worker (fun _ => held_work rfl rfl) ?_
    exact .inl ⟨by simp [held, here, WorkerPc.holds], rfl⟩
  | execute here | setValue here | spurious here =>
    refine exclusive.move .worker (fun _ => held_work rfl rfl) ?_
    exact .inl ⟨by simp [held, here, WorkerPc.holds], rfl⟩
  | @pushLock i call here point free =>
    refine exclusive.move (.pusher i) (fun _ => held_push here rfl rfl rfl) ?_
    exact .inr (.inl ⟨rfl, free, rfl⟩)
  | @push i call here point =>
    refine exclusive.move (.pusher i) (fun _ => held_push here rfl rfl rfl) ?_
    exact .inl ⟨by simp [held, here, point, PushPc.holds], rfl⟩
  | @pushUnlock i call here point =>
    refine exclusive.move (.pusher i) (fun _ => held_push here rfl rfl rfl) ?_
    exact .inr (.inr ⟨rfl, by simp [held, here, point, PushPc.holds], rfl⟩)
  | @pushNotify i call here point =>
    rw [notify_frame]
    refine exclusive.move (.pusher i) (fun _ => held_push here rfl rfl notify_holds) ?_
    exact .inl ⟨by simp [held, here, point, PushPc.holds], rfl⟩
  | @stopLock i here free =>
    refine exclusive.move (.stopper i) (fun _ => held_stop here rfl rfl rfl) ?_
    exact .inr (.inl ⟨rfl, free, rfl⟩)
  | @stopLeave i here | @stopUnlock i here =>
    refine exclusive.move (.stopper i) (fun _ => held_stop here rfl rfl rfl) ?_
    exact .inr (.inr ⟨rfl, by simp [held, here, HaltPc.holds], rfl⟩)
  | @stopNotify i here =>
    rw [notify_frame]
    refine exclusive.move (.stopper i) (fun _ => held_stop here rfl rfl notify_holds) ?_
    exact .inl ⟨by simp [held, here, HaltPc.holds], rfl⟩
  | @stopCheck i here =>
    refine exclusive.move (.stopper i) (fun _ => held_stop here rfl rfl rfl) ?_
    refine .inl ⟨?_, rfl⟩
    split <;> simp [held, here, HaltPc.holds]
  | @stopLate i here | @stopFirst i here | @stopSet i here | @stopJoin i here =>
    refine exclusive.move (.stopper i) (fun _ => held_stop here rfl rfl rfl) ?_
    exact .inl ⟨by simp [held, here, HaltPc.holds], rfl⟩

end Monitor

/-! ## What is found under the lock -/

/-- What the worker has found at its control point, and may rely on. -/
def WorkerPc.Found (stopping : Bool) (queue : List (Task Promise)) : WorkerPc → Prop
  | .parking => stopping = false ∧ queue = []
  | .deciding => stopping = true ∨ queue ≠ []
  | .leaving => stopping = true ∧ queue = []
  | .popping => queue ≠ []
  | _ => True

/-- What a `stop` has found or done at its control point. -/
def HaltPc.Found (stopping : Bool) : HaltPc → Prop
  | .setting => stopping = false
  | .unlocking => stopping = true
  | .notifying => stopping = true
  | .checking => stopping = true
  | .joining => stopping = true
  | _ => True

/-- Outside its critical section the worker relies on nothing. -/
theorem WorkerPc.found_of_outside {pc : WorkerPc} {stopping : Bool}
    {queue : List (Task Promise)} (outside : pc.holds = false) : pc.Found stopping queue := by
  cases pc <;> simp_all [holds, Found]

/-- Nobody but the `stop` that is to set the flag relies on its being clear. -/
theorem HaltPc.found_true {pc : HaltPc} (other : pc ≠ .setting) : pc.Found true := by
  cases pc <;> simp_all [Found]

namespace Monitor

/-- The lock protects what is found under it. -/
structure Guarded (m : Monitor) : Prop where
  /-- The lock is with the party inside a critical section. -/
  exclusive : m.Exclusive
  /-- What the worker has found is so. -/
  worker : m.worker.Found m.stopping m.queue
  /-- What every `stop` has found is so. -/
  stops : Table.All m.stops fun _ pc => pc.Found m.stopping
  /-- No front of an empty queue was taken. -/
  sound : m.faulted = false

/-- A woken worker relies on nothing. -/
theorem notify_found (found : m.worker.Found m.stopping m.queue) :
    m.notify.worker.Found m.stopping m.queue := by
  unfold notify
  split
  · trivial
  · exact found

/-- A dispatcher that starts is guarded. -/
theorem guarded_initial : Guarded {} := by
  refine ⟨fun party => ?_, trivial, Table.all_nil, rfl⟩
  cases party <;> simp [held, WorkerPc.holds]

/-- Every step keeps the monitor guarded. -/
theorem Guarded.step (guarded : m.Guarded) (taken : m.step event = some next) :
    next.Guarded := by
  have exclusive := guarded.exclusive.step taken
  have sound := guarded.sound
  have found := guarded.worker
  cases (step_move taken).2 with
  | submit owner submission => exact ⟨exclusive, found, guarded.stops, sound⟩
  | stopCall => exact ⟨exclusive, found, guarded.stops.spawn trivial, sound⟩
  | satisfy here ready => exact ⟨exclusive, ready, guarded.stops, sound⟩
  | park here calm empty => exact ⟨exclusive, ⟨calm, empty⟩, guarded.stops, sound⟩
  | leave here stopping empty => exact ⟨exclusive, ⟨stopping, empty⟩, guarded.stops, sound⟩
  | proceed here more =>
    rw [here] at found
    have queued : m.queue ≠ [] := by
      obtain running | queued := more
      · obtain stopping | queued := found
        · rw [running] at stopping
          contradiction
        · exact queued
      · exact queued
    exact ⟨exclusive, queued, guarded.stops, sound⟩
  | underflow here empty =>
    rw [here] at found
    exact absurd empty found
  | lock here free | block here | exit here | pop here queued | release here | execute here
  | setValue here | spurious here => exact ⟨exclusive, trivial, guarded.stops, sound⟩
  | @push i call here point =>
    -- the caller is inside, so the worker is not
    have inside : m.held (.pusher i) = true := by simp [held, here, point, PushPc.holds]
    have outside : m.worker.holds = false := guarded.exclusive.alone inside .worker (by simp)
    exact ⟨exclusive, WorkerPc.found_of_outside outside, guarded.stops, sound⟩
  | pushLock here point free | pushUnlock here point =>
    exact ⟨exclusive, found, guarded.stops, sound⟩
  | pushNotify here point =>
    rw [notify_frame] at exclusive ⊢
    exact ⟨exclusive, notify_found found, guarded.stops, sound⟩
  | stopLock here free | stopLate here stopping | stopLeave here =>
    exact ⟨exclusive, found, guarded.stops.set trivial, sound⟩
  | stopFirst here running => exact ⟨exclusive, found, guarded.stops.set running, sound⟩
  | @stopSet i here =>
    -- the caller is inside, so neither the worker nor another call is
    have inside : m.held (.stopper i) = true := by simp [held, here, HaltPc.holds]
    have outside : m.worker.holds = false := guarded.exclusive.alone inside .worker (by simp)
    refine ⟨exclusive, WorkerPc.found_of_outside outside, ?_, sound⟩
    intro j pc place
    obtain ⟨rfl, rfl⟩ | ⟨apart, old⟩ := Table.get_set place
    · rfl
    · have away : m.held (.stopper j) = false :=
        guarded.exclusive.alone inside (.stopper j) (by simpa using apart)
      apply HaltPc.found_true
      intro same
      simp [held, old, same, HaltPc.holds] at away
  | stopUnlock here =>
    have flagged : m.stopping = true := guarded.stops _ _ here
    exact ⟨exclusive, found, guarded.stops.set flagged, sound⟩
  | stopNotify here =>
    have flagged : m.stopping = true := guarded.stops _ _ here
    rw [notify_frame] at exclusive ⊢
    exact ⟨exclusive, notify_found found, guarded.stops.set flagged, sound⟩
  | stopCheck here =>
    have flagged : m.stopping = true := guarded.stops _ _ here
    refine ⟨exclusive, found, guarded.stops.set ?_, sound⟩
    split
    · exact flagged
    · trivial
  | stopJoin here exited => exact ⟨exclusive, found, guarded.stops.set trivial, sound⟩

/-- The monitor is guarded after every run. -/
theorem guarded {events : List MonitorEvent}
    (reached : Transition.run Monitor.step {} events = some m) : m.Guarded :=
  Transition.run_stable Guarded Guarded.step guarded_initial reached

/-! ## The view -/

/-- What a step means to the dispatcher: the step of a critical section that counts is the
access, whatever comes before and behind it means nothing. -/
def means (m : Monitor) : MonitorEvent → List Call
  | .submit _ _ => []
  | .stopCall => [.stopCall]
  | .worker =>
    match m.worker with
    | .popping => [.loop .take]
    | .leaving => [.loop .exit]
    | .taken _ => [.loop .execute]
    | .executed _ _ => [.loop .setValue]
    | _ => []
  | .push i =>
    match m.pushes[i]? with
    | some ⟨owner, submission, .pushing⟩ => [.submit owner submission]
    | _ => []
  | .stop i =>
    match m.stops[i]? with
    | some .testing => if m.stopping then [.stop i .flag] else []
    | some .setting => [.stop i .flag]
    | some .checking => [.stop i .check]
    | some .joining => [.stop i .join]
    | _ => []
  | .spurious => []

/-- A `stop` seen in the view. -/
theorem view_stops {pc : HaltPc} (here : m.stops[i]? = some pc) :
    m.view.stops[i]? = some pc.view := by
  simp [view, here]

/-- A woken worker waits as before. -/
theorem view_notify : m.notify.worker.view = m.worker.view := by
  unfold notify
  split
  · rename_i blocked
    simp [blocked, WorkerPc.view]
  · rfl

/-- A `stop` that moves in the view. -/
theorem view_moveStop (m : Monitor) (i : Nat) (pc : HaltPc) :
    (m.moveStop i pc).view = { m.view with stops := m.view.stops.set i pc.view } := by
  simp [view, moveStop, List.map_set]

/-- A `stop` that looks the same before and after its step takes no step in the view. -/
theorem view_unmoved {old : HaltPc} (pc : HaltPc) (here : m.stops[i]? = some old)
    (same : pc.view = old.view) (quiet : m.means event = [])
    (frame : next.view = (m.moveStop i pc).view) :
    Transition.run Dispatcher.step m.view (m.means event) = some next.view := by
  rw [quiet, frame, view_moveStop, same, Table.set_same (view_stops here)]
  rfl

/-- A `stop` whose step counts takes it in the view. -/
theorem view_moved {act : StopAct} {seen : Dispatcher Promise}
    (counts : m.means event = [.stop i act]) (moved : m.view.stopStep i act = some seen)
    (frame : next.view = seen) :
    Transition.run Dispatcher.step m.view (m.means event) = some next.view := by
  rw [counts, frame]
  exact Transition.run_cons.mpr ⟨seen, moved, rfl⟩

/-- Every step is what it means. -/
theorem view_step (guarded : m.Guarded) (taken : m.step event = some next) :
    Transition.run Dispatcher.step m.view (m.means event) = some next.view := by
  have found := guarded.worker
  cases (step_move taken).2 with
  | submit owner submission => rfl
  | stopCall => simp [means, Transition.run, Dispatcher.step, view, HaltPc.view]
  | lock here free =>
    obtain here | here := here
    all_goals simp [means, here, view, WorkerPc.view]
  | satisfy here ready | park here calm empty | leave here stopping empty | proceed here more =>
    simp [means, here, view, WorkerPc.view]
  | block here | release here | spurious here => simp [means, here, view, WorkerPc.view]
  | exit here =>
    rw [here] at found
    obtain ⟨stopping, empty⟩ := found
    simp [means, here, Transition.run, Dispatcher.step, Dispatcher.loopStep, view,
      WorkerPc.view, stopping, empty]
  | pop here queued =>
    simp [means, here, Transition.run, Dispatcher.step, Dispatcher.loopStep, view,
      WorkerPc.view, queued]
  | underflow here empty =>
    rw [here] at found
    exact absurd empty found
  | execute here | setValue here =>
    simp [means, here, Transition.run, Dispatcher.step, Dispatcher.loopStep, view,
      WorkerPc.view]
  | @push i call here point =>
    obtain ⟨owner, submission, pc⟩ := call
    cases point
    simp [means, here, Transition.run, Dispatcher.step, Dispatcher.push, view, movePush,
      PushCall.task]
  | @pushLock i call here point free | @pushUnlock i call here point =>
    obtain ⟨owner, submission, pc⟩ := call
    cases point
    simp [means, here, view, movePush]
  | @pushNotify i call here point =>
    obtain ⟨owner, submission, pc⟩ := call
    cases point
    rw [notify_frame]
    simp [means, here, view, movePush, view_notify]
  | stopLock here free => exact view_unmoved .testing here rfl (by simp [means, here]) rfl
  | stopFirst here running =>
    exact view_unmoved .setting here rfl (by simp [means, here, running]) rfl
  | stopLeave here => exact view_unmoved .returned here rfl (by simp [means, here]) rfl
  | stopUnlock here => exact view_unmoved .notifying here rfl (by simp [means, here]) rfl
  | stopNotify here =>
    refine view_unmoved .checking here rfl (by simp [means, here]) ?_
    rw [notify_frame]
    simp [view, moveStop, view_notify]
  | @stopLate i here stopping =>
    have entered : m.view.stops[i]? = some .entered := view_stops here
    have flag : m.view.stopping = true := stopping
    have moved : m.view.stopStep i .flag =
        some { m.view with stops := m.view.stops.set i .returned } := by
      simp [Dispatcher.stopStep, entered, flag]
    exact view_moved (by simp [means, here, stopping]) moved (view_moveStop m i .leaving)
  | @stopSet i here =>
    have entered : m.view.stops[i]? = some .entered := view_stops here
    have clear : m.view.stopping = false := guarded.stops _ _ here
    have moved : m.view.stopStep i .flag =
        some { m.view with stopping := true, stops := m.view.stops.set i .flagged } := by
      simp [Dispatcher.stopStep, entered, clear]
    exact view_moved (by simp [means, here]) moved
      (view_moveStop { m with stopping := true } i .unlocking)
  | @stopCheck i here =>
    have flagged : m.view.stops[i]? = some .flagged := view_stops here
    have moved : m.view.stopStep i .check = some { m.view with
        stops := m.view.stops.set i (if m.joinable then .joining else .returned) } := by
      simp [Dispatcher.stopStep, flagged]
      rfl
    refine view_moved (by simp [means, here]) moved ?_
    rw [view_moveStop, apply_ite HaltPc.view]
    rfl
  | @stopJoin i here exited =>
    have joining : m.view.stops[i]? = some .joining := view_stops here
    have gone : m.view.loop = .exited := by simp [view, exited, WorkerPc.view]
    have moved : m.view.stopStep i .join =
        some { m.view with joinable := false, stops := m.view.stops.set i .returned } := by
      simp [Dispatcher.stopStep, joining, gone]
    exact view_moved (by simp [means, here]) moved
      (view_moveStop { m with joinable := false } i .returned)

/-- The monitor refines the dispatcher whose critical sections are single steps. -/
def refinement : Transition.Refinement Monitor.step Dispatcher.step where
  view := view
  means := means
  invariant := Guarded
  kept := Guarded.step
  matched := view_step

/-- The task of the call is in the queue or behind it. -/
def pushed (call : PushCall) : Bool :=
  match call.pc with
  | .unlocking => true
  | .notifying => true
  | .returned => true
  | _ => false

/-- As many promises are known as calls have pushed. -/
def Counted (m : Monitor) : Prop :=
  m.view.tags.length = Table.total (fun call => (pushed call).toNat) m.pushes

/-- A call that moves on one side of its push is counted as before. -/
theorem Counted.move {call : PushCall} {pc : PushPc} (counted : m.Counted)
    (here : m.pushes[i]? = some call) (pushes : next.pushes = m.pushes.set i { call with pc })
    (more : next.view.tags.length + (pushed call).toNat =
      m.view.tags.length + (pushed { call with pc }).toNat) : next.Counted := by
  have trade := Table.total_set (fun call => (pushed call).toNat) { call with pc } here
  unfold Counted at counted ⊢
  rw [pushes]
  omega

/-- Every step counts the tasks pushed. -/
theorem Counted.step (counted : m.Counted) (taken : m.step event = some next) :
    next.Counted := by
  have keep : next.pushes = m.pushes → next.view.tags = m.view.tags → next.Counted := by
    intro pushes tags
    unfold Counted
    rw [pushes, tags]
    exact counted
  cases (step_move taken).2 with
  | submit owner submission =>
    unfold Counted at counted ⊢
    rw [Table.total_spawn]
    exact counted
  | lock here free =>
    obtain here | here := here
    all_goals exact keep rfl (by simp [view, here, WorkerPc.view, Dispatcher.tags])
  | satisfy here ready | park here calm empty | leave here stopping empty | proceed here more =>
    exact keep rfl (by simp [view, here, WorkerPc.view, Dispatcher.tags])
  | pop here queued =>
    exact keep rfl (by simp [view, here, queued, WorkerPc.view, Dispatcher.tags, LoopPc.held])
  | block here | exit here | release here | execute here | setValue here | spurious here =>
    exact keep rfl (by simp [view, here, WorkerPc.view, Dispatcher.tags, LoopPc.held])
  | pushLock here point free =>
    exact counted.move here rfl (by simp [pushed, point]; rfl)
  | push here point =>
    apply counted.move here rfl
    simp [pushed, point, view, movePush, Dispatcher.tags]
    omega
  | pushUnlock here point => exact counted.move here rfl (by simp [pushed, point]; rfl)
  | pushNotify here point =>
    rw [notify_frame]
    apply counted.move here rfl
    simp [pushed, point, view, movePush, Dispatcher.tags, view_notify]
  | stopNotify here =>
    rw [notify_frame]
    unfold Counted at counted ⊢
    simpa [view, moveStop, Dispatcher.tags, view_notify] using counted
  | _ => exact counted

/-- The monitor refines the dispatcher. Over any interleaving of any number of `submit_*` and
`stop()` calls with the worker, step by step through lock, queue, flag and condition variable:
the front of an empty queue is never taken, the party inside a critical section is the owner of
the lock, and the run means a run of the dispatcher whose critical sections are single steps,
which ends in what the monitor looks like. In it as many tasks are pushed as calls are behind
their push, and the promises set hold, in push order, the answers of one core run over them. -/
theorem monitor_refines_dispatcher (events : List MonitorEvent) (m : Monitor)
    (reached : Transition.run Monitor.step {} events = some m) :
    let calls := refinement.meaning {} events
    let tasks := ({} : Dispatcher Promise).pushedAlong calls
    m.faulted = false ∧
    (∀ party, m.held party = true ↔ m.owner = some party) ∧
    Transition.run Dispatcher.step {} calls = some m.view ∧
    tasks.length = (m.pushes.filter pushed).length ∧
    m.promises <+: (tasks.map Task.prom).zip (Dispatcher.coreRun tasks) := by
  intro calls tasks
  have guarded := guarded reached
  have meant : Transition.run Dispatcher.step {} calls = some m.view :=
    refinement.run_meaning guarded_initial reached
  have ledger := Dispatcher.ledger_run meant
  have fresh : Counted {} := rfl
  have counted : m.Counted := Transition.run_stable Counted Counted.step fresh reached
  refine ⟨guarded.sound, guarded.exclusive, meant, ?_, ledger.answers_prefix⟩
  have known : m.view.tags.length = tasks.length := by
    rw [ledger.tags_eq, List.length_map]
  rw [← known, counted, Table.total_eq_count]

/-- Two threads submit while the worker waits: one is inside its critical section when the other
asks for the lock. -/
def contendedRun : List MonitorEvent :=
  [.worker, .worker, .worker, .submit 0 (.sync "init"), .submit 1 (.startJob 200), .push 0,
    .push 0, .push 0, .push 1, .push 0, .push 1, .push 1, .worker, .worker, .worker, .worker,
    .worker, .worker, .worker]

/-- Both tasks of the contended run are pushed, and the first is answered. -/
theorem contendedRun_refines : ∃ m, Transition.run Monitor.step {} contendedRun = some m ∧
    m.faulted = false ∧ m.promises.map (fun entry => entry.2.message) = ["OK"] := by
  refine ⟨_, rfl, ?_, by decide⟩
  exact (monitor_refines_dispatcher contendedRun _ rfl).1

end Monitor

end QrEdgeGateway
