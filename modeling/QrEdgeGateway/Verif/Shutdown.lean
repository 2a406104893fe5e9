import QrEdgeGateway.Lib.Table
import QrEdgeGateway.Verif.SerialCore

/-!
# Which callers of `stop()` wait for the worker

`Dispatcher::stop` is documented to block until the worker has terminated. Only the call that
sets `stopping_` goes on to `join()`; every later one returns from its critical section, whether
or not the worker is still draining its queue. The call that sets the flag owns the shutdown from
then on, and returns only behind the loop.
-/

namespace QrEdgeGateway

namespace Dispatcher

variable {d next begun : Dispatcher Promise} {call : Call} {calls : List Call} {i : Nat}

/-- Until `stopping_` is set, the loop runs, the handle is joinable and no `stop()` call has
passed its critical section. -/
def Unstopped (d : Dispatcher Promise) : Prop :=
  d.stopping = false → d.joinable = true ∧ d.loop ≠ .exited ∧
    Table.All d.stops fun _ pc => pc = .entered

/-- Every step keeps an unstopped dispatcher so, or sets the flag. -/
theorem Unstopped.step (unstopped : d.Unstopped) (moved : d.step call = some next) :
    next.Unstopped := by
  intro running
  cases call with
  | submit owner submission =>
    cases moved
    exact unstopped running
  | loop act =>
    obtain ⟨stops, stopping, joinable⟩ := loopStep_frame moved
    rw [stopping] at running
    have before := unstopped running
    refine ⟨joinable.trans before.1, fun exited => ?_, stops ▸ before.2.2⟩
    have flagged := (exit_of_exited moved exited).2.2
    exact absurd (flagged.symm.trans running) (by decide)
  | stopCall =>
    cases moved
    have before := unstopped running
    exact ⟨before.1, before.2.1, before.2.2.spawn rfl⟩
  | stop j act =>
    obtain ⟨-, -, stopping, rfl⟩ | ⟨-, -, -, rfl⟩ | ⟨-, here, rfl⟩ | ⟨-, here, -, rfl⟩ :=
      stopStep_cases moved
    · exact absurd (stopping.symm.trans running) (by decide)
    · cases running
    · have entered := (unstopped running).2.2 _ _ here
      contradiction
    · have entered := (unstopped running).2.2 _ _ here
      contradiction

/-- A dispatcher is unstopped in this sense after every run. -/
theorem unstopped_run (reached : Transition.run Dispatcher.step {} calls = some d) :
    d.Unstopped :=
  Transition.run_stable Unstopped Unstopped.step
    (fun _ => ⟨rfl, by simp, Table.all_nil⟩) reached

/-- A loop that has returned stays so and sets no more promises. -/
theorem exited_step (exited : d.loop = .exited) (moved : d.step call = some next) :
    next.loop = .exited ∧ next.promises = d.promises := by
  obtain ⟨act, -, moved⟩ | ⟨loop, promises⟩ := step_worker moved
  · obtain ⟨_, _, -, here, -⟩ | ⟨-, here, -⟩ | ⟨_, -, here, -⟩ | ⟨_, _, -, here, -⟩ :=
      loopStep_cases moved
    all_goals
      rw [exited] at here
      cases here
  · exact ⟨loop.trans exited, promises⟩

/-- The `stop()` call number `i` has set the flag and owns the shutdown: it is the only one that
can reach the join, and it has not returned before the loop. -/
structure Owns (i : Nat) (d : Dispatcher Promise) : Prop where
  /-- The flag is set. -/
  stopping : d.stopping = true
  /-- Every other call is at its critical section or has returned. -/
  others : Table.All d.stops fun j pc => j = i ∨ pc = .entered ∨ pc = .returned
  /-- Where the call is. -/
  own : d.stops[i]? = some .flagged ∧ d.joinable = true ∨ d.stops[i]? = some .joining ∨
    d.stops[i]? = some .returned ∧ d.loop = .exited

/-- A step that leaves the calls, the flag and the handle alone, and a returned loop returned,
leaves the owner. -/
theorem Owns.frame (owns : d.Owns i) (stopping : next.stopping = d.stopping)
    (joinable : next.joinable = d.joinable) (stops : next.stops = d.stops)
    (exited : d.loop = .exited → next.loop = .exited) : next.Owns i := by
  refine ⟨by rw [stopping, owns.stopping], by rw [stops]; exact owns.others, ?_⟩
  rw [joinable, stops]
  exact owns.own.imp_right (Or.imp_right fun done => ⟨done.1, exited done.2⟩)

/-- A step of another call leaves the owner where it is. -/
theorem Owns.other {j : Nat} {pc : StopPc} (owns : d.Owns i) (other : i ≠ j)
    (stopping : next.stopping = true) (joinable : next.joinable = d.joinable)
    (loop : next.loop = d.loop) (stops : next.stops = d.stops.set j pc)
    (quiet : pc = .entered ∨ pc = .returned) : next.Owns i := by
  refine ⟨stopping, ?_, ?_⟩
  · rw [stops]
    exact owns.others.set (.inr quiet)
  · rw [joinable, loop, stops, Table.get_set_other other]
    exact owns.own

/-- Every step keeps the owner. -/
theorem Owns.step (owns : d.Owns i) (moved : d.step call = some next) : next.Owns i := by
  cases call with
  | submit owner submission =>
    cases moved
    exact owns.frame rfl rfl rfl id
  | loop act =>
    obtain ⟨stops, stopping, joinable⟩ := loopStep_frame moved
    apply owns.frame stopping joinable stops
    exact fun exited => (exited_step exited (show d.step (.loop act) = some next from moved)).1
  | stopCall =>
    cases moved
    refine ⟨owns.stopping, owns.others.spawn (.inr (.inl rfl)), ?_⟩
    exact owns.own.imp (And.imp_left Table.get_spawn_old)
      (Or.imp Table.get_spawn_old (And.imp_left Table.get_spawn_old))
  | stop j act =>
    by_cases same : i = j
    · subst same
      obtain ⟨-, here, -, -⟩ | ⟨-, here, -, -⟩ | ⟨-, here, rfl⟩ | ⟨-, here, exited, rfl⟩ :=
        stopStep_cases moved
      · have own := owns.own
        simp [here] at own
      · have own := owns.own
        simp [here] at own
      · -- the handle is still joinable, so the call goes on to the join
        have joinable : d.joinable = true := by
          have own := owns.own
          simpa [here] using own
        refine ⟨owns.stopping, owns.others.set (.inl rfl), .inr (.inl ?_)⟩
        simp only [joinable, if_true]
        exact Table.get_set_self here
      · exact ⟨owns.stopping, owns.others.set (.inl rfl),
          .inr (.inr ⟨Table.get_set_self here, exited⟩)⟩
    · obtain ⟨-, -, -, rfl⟩ | ⟨-, -, running, -⟩ | ⟨-, here, -⟩ | ⟨-, here, -, -⟩ :=
        stopStep_cases moved
      · exact owns.other same owns.stopping rfl rfl rfl (.inr rfl)
      · exact absurd (owns.stopping.symm.trans running) (by decide)
      · have quiet := owns.others _ _ here
        simp [Ne.symm same] at quiet
      · have quiet := owns.others _ _ here
        simp [Ne.symm same] at quiet

/-- The critical section of a call that finds the flag clear makes it the owner. -/
theorem Owns.of_flag (unstopped : d.Unstopped) (running : d.stopping = false)
    (entered : d.stops[i]? = some .entered) (moved : d.step (.stop i .flag) = some next) :
    next.Owns i := by
  have before := unstopped running
  have others : Table.All d.stops fun j pc => j = i ∨ pc = .entered ∨ pc = .returned :=
    before.2.2.mono fun _ _ _ here => .inr (.inl here)
  have flags : d.step (.stop i .flag) =
      some { d with stopping := true, stops := d.stops.set i .flagged } := by
    simp [Dispatcher.step, stopStep, entered, running]
  obtain rfl := Option.some.inj (flags.symm.trans moved)
  exact ⟨rfl, others.set (.inl rfl), .inl ⟨Table.get_set_self entered, before.1⟩⟩

/-- The same over a whole run. -/
theorem exited_run (exited : d.loop = .exited)
    (reached : Transition.run Dispatcher.step d calls = some next) :
    next.loop = .exited ∧ next.promises = d.promises := by
  refine Transition.run_stable
    (fun state => state.loop = .exited ∧ state.promises = d.promises) ?_ ⟨exited, rfl⟩ reached
  intro state event after held moved
  have kept := exited_step held.1 moved
  exact ⟨kept.1, kept.2.trans held.2⟩

/-- A loop that returns along a run returns at an exit of the run. -/
theorem exists_exit (running : d.loop ≠ .exited)
    (reached : Transition.run Dispatcher.step d calls = some next) (exited : next.loop = .exited) :
    ∃ before after middle, calls = before ++ .loop .exit :: after ∧
      Transition.run Dispatcher.step d before = some middle := by
  have violated : ¬ Transition.Along Dispatcher.step (fun _ call => call ≠ .loop .exit) d
      calls := by
    intro along
    refine Transition.run_invariant (fun state => state.loop ≠ .exited) ?_ running reached along
      exited
    intro state event after held other moved exits
    obtain ⟨act, rfl, moved⟩ | ⟨loop, -⟩ := step_worker moved
    · obtain ⟨rfl, -⟩ := exit_of_exited moved exits
      exact other rfl
    · exact held (loop ▸ exits)
  obtain ⟨before, event, after, middle, split, first, exits⟩ :=
    Transition.exists_violation reached violated
  obtain rfl : event = .loop .exit := by simpa using exits
  exact ⟨before, after, middle, split, first⟩

/-- A `stop()` call that has returned has taken its critical section. -/
theorem exists_flag (entered : d.stops[i]? = some .entered)
    (reached : Transition.run Dispatcher.step d calls = some next)
    (returned : next.stops[i]? = some .returned) :
    ∃ before after middle, calls = before ++ .stop i .flag :: after ∧
      Transition.run Dispatcher.step d before = some middle := by
  have violated : ¬ Transition.Along Dispatcher.step (fun _ call => call ≠ .stop i .flag) d
      calls := by
    intro along
    have still : next.stops[i]? = some .entered := by
      refine Transition.run_invariant (fun state => state.stops[i]? = some .entered) ?_ entered
        reached along
      intro state event after held other moved
      cases event with
      | submit owner submission =>
        cases moved
        exact held
      | loop act => exact (loopStep_frame moved).1 ▸ held
      | stopCall =>
        cases moved
        exact Table.get_spawn_old held
      | stop j act =>
        by_cases same : i = j
        · subst same
          obtain ⟨rfl, -⟩ | ⟨rfl, -⟩ | ⟨-, here, -⟩ | ⟨-, here, -⟩ := stopStep_cases moved
          · exact absurd rfl other
          · exact absurd rfl other
          · exact absurd (held.symm.trans here) (by decide)
          · exact absurd (held.symm.trans here) (by decide)
        · obtain ⟨-, -, -, rfl⟩ | ⟨-, -, -, rfl⟩ | ⟨-, -, rfl⟩ | ⟨-, -, -, rfl⟩ :=
            stopStep_cases moved
          all_goals
            show (state.stops.set j _)[i]? = _
            rw [Table.get_set_other same]
            exact held
    exact absurd (still.symm.trans returned) (by decide)
  obtain ⟨before, event, after, middle, split, first, flags⟩ :=
    Transition.exists_violation reached violated
  obtain rfl : event = .stop i .flag := by simpa using flags
  exact ⟨before, after, middle, split, first⟩

/-- Tasks pushed along a run in two parts. -/
theorem pushedAlong_append {first second : List Call}
    (reached : Transition.run Dispatcher.step d first = some next) :
    d.pushedAlong (first ++ second) = d.pushedAlong first ++ next.pushedAlong second := by
  induction first generalizing d with
  | nil =>
    obtain rfl := Option.some.inj reached
    rfl
  | cons call rest ih =>
    obtain ⟨middle, moved, onward⟩ := Transition.run_cons.mp reached
    simp [pushedAlong, moved, ih onward]

/-- Everything pushed along the first events of a run is executed and answered at its end. -/
def Settled (before calls : List Call) (d : Dispatcher Promise) : Prop :=
  ∀ task ∈ ({} : Dispatcher Promise).pushedAlong before,
    task ∈ ({} : Dispatcher Promise).performedAlong calls ∧
      ∃ response, d.future task.prom = some response

/-- Behind the loop everything pushed earlier is settled, unless it was pushed behind the loop. -/
theorem settled_of_exited {before later : List Call}
    (started : Transition.run Dispatcher.step {} before = some begun)
    (onward : Transition.run Dispatcher.step begun later = some d) (exited : d.loop = .exited)
    (early : begun.loop = .exited → begun.queue = []) : Settled before (before ++ later) d := by
  intro task pushed
  by_cases already : begun.loop = .exited
  · have idle : begun.unanswered = [] := by
      simp [unanswered, LoopPc.held, already, early already]
    exact settled_of_drained started idle onward pushed
  · obtain ⟨first, second, middle, rfl, reached⟩ := exists_exit already onward exited
    have whole := Transition.run_trans started reached
    rw [Transition.run_append, reached, Option.bind_some] at onward
    obtain ⟨_, exits, -⟩ := Transition.run_cons.mp onward
    rw [← List.append_assoc]
    apply settled_of_drained whole (unanswered_exit exits) onward
    rw [pushedAlong_append started]
    exact List.mem_append_left _ pushed

/-- A task left in the queue of a loop that has returned is never answered. -/
theorem queue_of_settled {before later calls : List Call}
    (started : Transition.run Dispatcher.step {} before = some begun)
    (onward : Transition.run Dispatcher.step begun later = some d)
    (settled : Settled before calls d) (already : begun.loop = .exited) : begun.queue = [] := by
  by_contra filled
  obtain ⟨task, rest, queued⟩ := List.exists_cons_of_ne_nil filled
  have ledger := ledger_run started
  have pushed : task ∈ ({} : Dispatcher Promise).pushedAlong before := by
    obtain ⟨answered, shape, -⟩ := ledger.split
    rw [shape]
    simp [unanswered, queued]
  obtain ⟨-, response, ready⟩ := settled task pushed
  have set : (task.prom, response) ∈ begun.promises := by
    rw [← (exited_run already onward).2]
    exact mem_of_future ready
  have distinct : begun.tags.Nodup := ledger.tags_eq ▸ ledger.distinct
  have apart := (List.nodup_append.mp distinct).2.2 task.prom (List.mem_map_of_mem set) task.prom
    (by simp [queued])
  exact apart rfl

/-- A `stop()` call that returns has passed its critical section, and what follows it depends on
what it found there. The call returns only when the worker loop has exited and everything pushed
before the call is executed and answered, exactly if it finds `stopping_` clear; or finds the
loop already returned, with no task pushed in between. -/
theorem stop_blocks_iff (before : List Call) (begun : Dispatcher Promise)
    (started : Transition.run Dispatcher.step {} before = some begun) :
    let i := begun.stops.length
    (∀ later last, Transition.run Dispatcher.step begun (.stopCall :: later) = some last →
      last.stops[i]? = some .returned →
      ∃ between rest d, later = between ++ .stop i .flag :: rest ∧
        Transition.run Dispatcher.step begun (.stopCall :: between) = some d) ∧
    ∀ between d, Transition.run Dispatcher.step begun (.stopCall :: between) = some d →
      d.stops[i]? = some .entered →
      ((∀ rest last, Transition.run Dispatcher.step d (.stop i .flag :: rest) = some last →
        last.stops[i]? = some .returned →
        last.loop = .exited ∧
          Settled before (before ++ .stopCall :: (between ++ .stop i .flag :: rest)) last) ↔
      d.stopping = false ∨ d.loop = .exited ∧ (begun.loop = .exited → begun.queue = [])) := by
  intro i
  constructor
  · intro later last reached returned
    obtain ⟨opened, called, onward⟩ := Transition.run_cons.mp reached
    cases called
    obtain ⟨between, rest, d, rfl, first⟩ := exists_flag Table.get_spawn_last onward returned
    exact ⟨between, rest, d, rfl, Transition.run_cons.mpr ⟨_, rfl, first⟩⟩
  · intro between d reached entered
    have whole := Transition.run_trans started reached
    have rejoin : ∀ rest last,
        Transition.run Dispatcher.step d (.stop i .flag :: rest) = some last →
        Transition.run Dispatcher.step begun (.stopCall :: (between ++ .stop i .flag :: rest)) =
          some last := fun rest last onward => Transition.run_trans reached onward
    constructor
    · intro all
      cases running : d.stopping with
      | false => exact .inl rfl
      | true =>
        -- the call returns at once, so what holds when it returns held before
        have early : d.step (.stop i .flag) =
            some { d with stops := d.stops.set i .returned } := by
          simp [Dispatcher.step, stopStep, entered, running]
        have onward := Transition.run_cons.mpr ⟨_, early, Transition.run_nil⟩
        obtain ⟨exited, settled⟩ := all [] _ onward (Table.get_set_self entered)
        exact .inr ⟨exited, queue_of_settled started (rejoin _ _ onward) settled⟩
    · rintro (running | ⟨exited, quiet⟩) rest last onward returned
      · have unstopped := unstopped_run whole
        obtain ⟨flagged, moved, later⟩ := Transition.run_cons.mp onward
        have owns : flagged.Owns i := Owns.of_flag unstopped running entered moved
        have kept : last.Owns i := Transition.run_stable (Owns i) Owns.step owns later
        have exited : last.loop = .exited := by
          have own := kept.own
          simpa [returned] using own
        refine ⟨exited, settled_of_exited started (rejoin _ _ onward) exited fun already => ?_⟩
        exact absurd (exited_run already reached).1 (unstopped running).2.1
      · have still : last.loop = .exited := (exited_run exited onward).1
        exact ⟨still, settled_of_exited started (rejoin _ _ onward) still quiet⟩

/-- One caller alone: a task, then `stop()`. -/
def stopAlone : List Call :=
  [.submit 0 (.sync "init"), .stopCall, .stop 0 .flag, .stop 0 .check, .loop .take,
    .loop .execute, .loop .setValue, .loop .exit, .stop 0 .join]

/-- The only call of `stop()` returns behind the loop with the task answered. -/
theorem stopAlone_blocks : ∃ d, Transition.run Dispatcher.step {} stopAlone = some d ∧
    d.stops[0]? = some .returned ∧ d.loop = .exited ∧
    Settled [.submit 0 (.sync "init")] stopAlone d := by
  refine ⟨_, rfl, rfl, ?_⟩
  have blocks := ((stop_blocks_iff [.submit 0 (.sync "init")] _ rfl).2 [] _ rfl rfl).mpr (.inl rfl)
  exact blocks [.stop 0 .check, .loop .take, .loop .execute, .loop .setValue, .loop .exit,
    .stop 0 .join] _ rfl rfl

/-- A second caller while the first one's shutdown is on its way. -/
def stopTwice : List Call :=
  [.submit 0 (.sync "init"), .stopCall, .stop 0 .flag, .stopCall, .stop 1 .flag]

/-- The second call of `stop()` has returned; the worker waits, and the task pushed before both
calls is neither executed nor answered. -/
theorem stopTwice_returned : ∃ d, Transition.run Dispatcher.step {} stopTwice = some d ∧
    d.stops[1]? = some .returned ∧ d.loop = .waiting ∧
    ({} : Dispatcher Promise).pushedAlong (stopTwice.take 3) = [.ofSync "init" ⟨0, 0⟩] ∧
    ({} : Dispatcher Promise).performedAlong stopTwice = [] ∧ d.future ⟨0, 0⟩ = none := by
  refine ⟨_, rfl, ?_⟩
  decide

end Dispatcher

end QrEdgeGateway
