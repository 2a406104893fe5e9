import QrEdgeGateway.Process
import QrEdgeGateway.Verif.ServiceProgress

/-!
# The end of the process

When the job runner and the store are destroyed no job worker is left, and when the dispatcher
and the core are destroyed the dispatcher's worker has returned and every task has been answered.
So no thread uses an object that is gone. And the end is always reached: `main` waits for a job
worker that can end, and then for a worker that drains its queue.
-/

namespace QrEdgeGateway

namespace World

variable {w next : World} {event : Event}

/-- A handler that has answered does not move. -/
theorem Settled.no_handler (settled : w.Settled) {h : Nat} {request : Request} {pc : RestPc}
    (here : w.handlers[h]? = some ⟨request, pc⟩) (undone : Handler.done ⟨request, pc⟩ = false) :
    False := by
  have done : Handler.done ⟨request, pc⟩ = true := settled h _ here
  rw [undone] at done
  contradiction

/-- Once every request is answered and no other comes, the handlers and the thread object stay as
they are, and the process does not end in `std::terminate`. -/
theorem step_settled (alive : w.Alive) (settled : w.Settled)
    (other : ∀ request, event ≠ .request request) (taken : w.step event = some next) :
    next.handlers = w.handlers ∧ next.handle = w.handle ∧ next.aborted = false := by
  have running := (step_move taken).1
  cases (step_move taken).2 with
  | arrive request => exact absurd rfl (other request)
  | dispatch moved | work found agrees moved | write found moved written | clear found moved
  | finish found moved => exact ⟨rfl, rfl, running⟩
  | writeFail found moved unwritten =>
    have present : (w.store.get _).isSome = true := alive.recorded.worker _ _ found
    rw [← (Job.of_write moved).1, ← JobStore.write_isSome, unwritten] at present
    contradiction
  | create rd here => exact (settled.no_handler here rfl).elim
  | _ here => exact (settled.no_handler here rfl).elim

/-- The service makes no `stop()` call and does not join the dispatcher's worker. -/
theorem stops_step (taken : w.step event = some next) :
    next.disp.stops = w.disp.stops ∧ next.disp.joinable = w.disp.joinable := by
  cases (step_move taken).2 with
  | dispatch moved =>
    obtain ⟨stops, -, joinable⟩ := Dispatcher.loopStep_frame moved
    exact ⟨stops, joinable⟩
  | _ => exact ⟨rfl, rfl⟩

end World

variable {p next : Process} {w v : World} {event : ProcessEvent}

namespace Process

/-- No `stop()` call has been made. -/
def Fresh (d : Dispatcher Submitter) : Prop := d.stops = [] ∧ d.joinable = true

/-- The server has ended, the job runner is still there. -/
structure Closing (w : World) : Prop where
  /-- Every wait is for somebody who can move. -/
  alive : w.Alive
  /-- No `stop()` call has been made. -/
  fresh : Fresh w.disp
  /-- Every request is answered. -/
  settled : w.Settled
  /-- The process has not been aborted. -/
  running : w.aborted = false

/-- The job runner and the store are gone. -/
structure Quiet (w : World) : Prop where
  /-- Every request is answered. -/
  settled : w.Settled
  /-- Every job worker has exited. -/
  ended : Table.All w.threads fun _ thread => thread.job.pc = .exited
  /-- The process has not been aborted. -/
  running : w.aborted = false

/-- What the `stop()` call of `main` has established, by where it is. -/
def Halts (d : Dispatcher Submitter) : StopPc → Prop
  | .entered => d.stopping = false ∧ d.loop ≠ .exited ∧ d.joinable = true
  | .flagged => d.stopping = true ∧ d.joinable = true
  | .joining => d.stopping = true
  | .returned => d.loop = .exited

/-- `main` is inside the one `stop()` call; a worker that has returned has left nothing behind. -/
structure Halting (d : Dispatcher Submitter) (pc : StopPc) : Prop where
  /-- The one call. -/
  sole : d.stops = [pc]
  /-- What it has established. -/
  point : Halts d pc
  /-- The worker drains the queue before it returns. -/
  drained : d.loop = .exited → d.queue = []

/-- What holds of the service, by where `main` is. -/
def Stage (w : World) : MainPc → Prop
  | .serving => w.Alive ∧ Fresh w.disp
  | .cancelling => Closing w
  | .checking => Closing w
  | .joining => Closing w ∧ w.handle ≠ none
  | .stopping => Quiet w ∧ ∃ pc, Halting w.disp pc
  | .ended => Quiet w ∧ Halting w.disp .returned

/-! ## What the steps preserve -/

/-- A step of the service keeps the stage while the job runner is there. -/
theorem Closing.keep {event : Event} (closing : Closing w)
    (other : ∀ request, event ≠ .request request) (taken : w.step event = some v) :
    Closing v ∧ v.handle = w.handle := by
  obtain ⟨handlers, handle, running⟩ :=
    World.step_settled closing.alive closing.settled other taken
  obtain ⟨stops, joinable⟩ := World.stops_step taken
  refine ⟨⟨closing.alive.step taken, ⟨stops.trans closing.fresh.1, joinable.trans closing.fresh.2⟩,
    ?_, running⟩, handle⟩
  unfold World.Settled
  rw [handlers]
  exact closing.settled

/-- Once the job workers have exited, the service moves only by the dispatcher's worker. -/
theorem Quiet.only_dispatch {event : Event} (quiet : Quiet w)
    (other : ∀ request, event ≠ .request request) (taken : w.step event = some v) :
    ∃ act disp, event = .dispatch act ∧ w.disp.loopStep act = some disp ∧
      v = { w with disp } := by
  cases (World.step_move taken).2 with
  | arrive request => exact absurd rfl (other request)
  | dispatch moved => exact ⟨_, _, rfl, moved, rfl⟩
  | work found agrees moved =>
    exact absurd (quiet.ended _ _ found) (Job.unfinished_of_step moved)
  | write found moved written =>
    exact absurd (quiet.ended _ _ found) (Job.unfinished_of_step moved)
  | writeFail found moved unwritten =>
    exact absurd (quiet.ended _ _ found) (Job.unfinished_of_step moved)
  | clear found moved => exact absurd (quiet.ended _ _ found) (Job.unfinished_of_step moved)
  | finish found moved => exact absurd (quiet.ended _ _ found) (Job.unfinished_of_step moved)
  | create rd here => exact (quiet.settled.no_handler here rfl).elim
  | _ here => exact (quiet.settled.no_handler here rfl).elim

/-- The dispatcher's worker keeps what the `stop()` call has established. -/
theorem Halting.loop {d disp : Dispatcher Submitter} {pc : StopPc} {act : LoopAct}
    (halting : Halting d pc) (moved : d.loopStep act = some disp) : Halting disp pc := by
  obtain ⟨stops, stopping, joinable⟩ := Dispatcher.loopStep_frame moved
  refine ⟨stops.trans halting.sole, ?_, fun exited => ?_⟩
  · have point := halting.point
    cases pc with
    | entered =>
      refine ⟨stopping.trans point.1, fun exited => ?_, joinable.trans point.2.2⟩
      have set := (Dispatcher.exit_of_exited moved exited).2.2
      rw [point.1] at set
      contradiction
    | flagged => exact ⟨stopping.trans point.1, joinable.trans point.2⟩
    | joining => exact stopping.trans point
    | returned =>
      have here : d.loop = .exited := point
      cases act <;> simp [Dispatcher.loopStep, here] at moved
  · obtain ⟨_, _, -, -, -, rfl⟩ | ⟨-, -, queued, -, rfl⟩ | ⟨_, -, -, rfl⟩ | ⟨_, _, -, -, rfl⟩ :=
      Dispatcher.loopStep_cases moved
    · contradiction
    · exact queued
    · contradiction
    · contradiction

/-- `~Dispatcher` begins with a dispatcher nobody has stopped. -/
theorem halting_enter (fresh : Fresh w.disp)
    (running : w.disp.stopping = false ∧ w.disp.loop ≠ .exited) :
    Halting (enterStop w).world.disp .entered :=
  ⟨by simp [enterStop, fresh.1], ⟨running.1, running.2, fresh.2⟩, fun exited =>
    absurd exited running.2⟩

/-- A step of the `stop()` call keeps the stage. -/
theorem Quiet.of_callStop {act : StopAct} {pc : StopPc} (quiet : Quiet w)
    (halting : Halting w.disp pc) (moved : callStop w act = some next) :
    Stage next.world next.main := by
  obtain ⟨disp, stepped, rfl⟩ := Option.map_eq_some_iff.mp moved
  refine ⟨⟨quiet.settled, quiet.ended, quiet.running⟩, ?_⟩
  have point := halting.point
  obtain ⟨-, here, stopping, rfl⟩ | ⟨-, here, -, rfl⟩ | ⟨-, here, rfl⟩ | ⟨-, here, exited, rfl⟩ :=
    Dispatcher.stopStep_cases stepped
  all_goals
    simp only [halting.sole, List.getElem?_cons_zero, Option.some.injEq] at here
    subst here
  · -- nobody else has set the flag
    rw [point.1] at stopping
    contradiction
  · exact ⟨.flagged, by simp [halting.sole], ⟨rfl, point.2.2⟩, halting.drained⟩
  · refine ⟨.joining, by simp [halting.sole, point.2], point.1, halting.drained⟩
  · exact ⟨.returned, by simp [halting.sole], exited, halting.drained⟩

/-- Every step of the process keeps the stage. -/
theorem stage_step (stage : Stage p.world p.main) (taken : p.step event = some next) :
    Stage next.world next.main := by
  obtain ⟨w, main⟩ := p
  cases event with
  | service event =>
    simp only [step] at taken
    split at taken
    · rename_i lets
      obtain ⟨v, moved, rfl⟩ := Option.map_eq_some_iff.mp taken
      have other (gone : main ≠ .serving) : ∀ request, event ≠ .request request := by
        rintro request rfl
        exact gone (by simpa [MainPc.lets] using lets)
      cases main with
      | serving =>
        obtain ⟨stops, joinable⟩ := World.stops_step moved
        exact ⟨stage.1.step moved, stops.trans stage.2.1, joinable.trans stage.2.2⟩
      | cancelling => exact (Closing.keep stage (other (by simp)) moved).1
      | checking => exact (Closing.keep stage (other (by simp)) moved).1
      | joining =>
        obtain ⟨closing, handle⟩ := Closing.keep stage.1 (other (by simp)) moved
        exact ⟨closing, by rw [handle]; exact stage.2⟩
      | stopping =>
        obtain ⟨quiet, pc, halting⟩ := stage
        obtain ⟨act, disp, rfl, stepped, rfl⟩ := quiet.only_dispatch (other (by simp)) moved
        exact ⟨⟨quiet.settled, quiet.ended, quiet.running⟩, pc, halting.loop stepped⟩
      | ended =>
        obtain ⟨quiet, halting⟩ := stage
        obtain ⟨act, disp, rfl, stepped, rfl⟩ := quiet.only_dispatch (other (by simp)) moved
        exact ⟨⟨quiet.settled, quiet.ended, quiet.running⟩, halting.loop stepped⟩
    · contradiction
  | main =>
    simp only [step] at taken
    split at taken
    · contradiction
    · rename_i running
      cases main with
      | serving =>
        simp only [mainStep] at taken
        split at taken
        · rename_i settled
          cases taken
          exact ⟨stage.1, stage.2, settled, by simpa using running⟩
        · contradiction
      | cancelling =>
        cases taken
        obtain ⟨alive, fresh, settled, running⟩ := stage
        exact ⟨⟨⟨alive.sorted.ticketed, alive.sorted.typed, alive.sorted.joinable⟩,
          alive.recorded, alive.asks, alive.posted, alive.inside, alive.running⟩, fresh, settled,
          running⟩
      | checking =>
        simp only [mainStep] at taken
        split at taken
        · rename_i held
          cases taken
          exact ⟨stage, by simpa [Option.isSome_iff_ne_none] using held⟩
        · rename_i free
          cases taken
          obtain ⟨alive, fresh, settled, running⟩ := stage
          have ended := alive.sorted.joinable.exited_of_none (by simpa using free)
          exact ⟨⟨settled, ended, running⟩, .entered, halting_enter fresh alive.running⟩
      | joining =>
        obtain ⟨⟨alive, fresh, settled, running⟩, -⟩ := stage
        simp only [mainStep] at taken
        split at taken
        · contradiction
        · rename_i k held
          split at taken
          · rename_i thread found
            split at taken
            · rename_i exited
              cases taken
              have ended := alive.sorted.joinable.exited_of_joined held found exited
              have here : Fresh { w with handle := none }.disp := fresh
              exact ⟨⟨settled, ended, running⟩, .entered, halting_enter here alive.running⟩
            · contradiction
          · contradiction
      | stopping =>
        obtain ⟨quiet, pc, halting⟩ := stage
        simp only [mainStep, stopStep] at taken
        split at taken
        · exact quiet.of_callStop halting taken
        · exact quiet.of_callStop halting taken
        · exact quiet.of_callStop halting taken
        · rename_i returned
          cases taken
          rw [halting.sole] at returned
          obtain rfl : pc = .returned := by simpa using returned
          exact ⟨quiet, halting⟩
        · contradiction
      | ended => contradiction

/-- In every reachable state the stage is kept. -/
theorem stage {events : List ProcessEvent}
    (reached : Transition.run Process.step {} events = some p) : Stage p.world p.main := by
  refine Transition.run_stable (fun p : Process => Stage p.world p.main) stage_step ?_ reached
  exact ⟨World.alive Transition.run_nil, rfl, rfl⟩

/-! ## The end is reached -/

end Process

/-- How far `main` is from its end, with the `stop()` calls made. -/
def MainPc.rank (stops : List StopPc) : MainPc → Nat
  | .serving => 8
  | .cancelling => 7
  | .checking => 6
  | .joining => 5
  | .stopping =>
    match stops with
    | [.entered] => 4
    | [.flagged] => 3
    | [.joining] => 2
    | _ => 1
  | .ended => 0

namespace Process

/-- How far the process is from its end. -/
def rank (p : Process) : Nat :=
  p.world.rank + (if p.world.disp.loop = .exited then 0 else 1) + p.main.rank p.world.disp.stops

/-- A step of the service towards rest brings the process closer to its end. -/
theorem rank_service {event : Event} {main : MainPc} (alive : w.Alive)
    (taken : w.step event = some v) (closer : v.rank < w.rank) :
    rank { world := v, main } < rank { world := w, main } := by
  have before := alive.running.2
  have after := (alive.step taken).running.2
  have stops := (World.stops_step taken).1
  simp only [rank, before, after, stops, if_false]
  omega

/-- While the job runner is there, a job worker that has not exited can move on. -/
theorem Closing.progress {main : MainPc} {k : Nat} {thread : Thread} (closing : Closing w)
    (found : w.threads[k]? = some thread) (unfinished : thread.job.Unfinished) :
    ∃ event next, Process.step { world := w, main } event = some next ∧
      rank next < rank { world := w, main } := by
  obtain ⟨obs, v, taken, ended | closer⟩ := World.exists_jobStep closing.running found unfinished
    (closing.alive.inside k thread found)
  · have running := (World.step_settled closing.alive closing.settled (by simp) taken).2.2
    rw [running] at ended
    contradiction
  · have less : rank { world := v, main } < rank { world := w, main } :=
      rank_service closing.alive taken closer
    refine ⟨.service (.job k obs), { world := v, main }, ?_, less⟩
    simp [step, MainPc.lets, taken]

/-- Inside `~Dispatcher` the call or the worker can move on. -/
theorem Quiet.progress {pc : StopPc} (quiet : Quiet w) (halting : Halting w.disp pc) :
    ∃ event next, Process.step { world := w, main := .stopping } event = some next ∧
      rank next < rank { world := w, main := .stopping } := by
  have point := halting.point
  have sole := halting.sole
  have running := quiet.running
  cases pc with
  | entered =>
    refine ⟨.main, ⟨{ w with disp := { w.disp with
      stopping := true, stops := w.disp.stops.set 0 .flagged } }, .stopping⟩, ?_, ?_⟩
    · simp [step, running, mainStep, stopStep, sole, callStop, Dispatcher.stopStep, point.1]
    · simp [rank, World.rank, Dispatcher.work, MainPc.rank, sole]
  | flagged =>
    refine ⟨.main, ⟨{ w with disp := { w.disp with
      stops := w.disp.stops.set 0 .joining } }, .stopping⟩, ?_, ?_⟩
    · simp [step, running, mainStep, stopStep, sole, callStop, Dispatcher.stopStep, point.2]
    · simp [rank, World.rank, Dispatcher.work, MainPc.rank, sole]
  | returned =>
    refine ⟨.main, ⟨w, .ended⟩, ?_, ?_⟩
    · simp [step, running, mainStep, stopStep, sole]
    · simp [rank, MainPc.rank, sole]
  | joining =>
    by_cases exited : w.disp.loop = .exited
    · refine ⟨.main, ⟨{ w with disp := { w.disp with
        joinable := false, stops := w.disp.stops.set 0 .returned } }, .stopping⟩, ?_, ?_⟩
      · simp [step, running, mainStep, stopStep, sole, callStop, Dispatcher.stopStep, exited]
      · simp [rank, World.rank, Dispatcher.work, MainPc.rank, sole]
    · by_cases idle : w.disp.work = 0
      · -- nothing is left to do and the flag is set: the worker returns
        have answered := Dispatcher.unanswered_of_idle idle
        have queue : w.disp.queue = [] := (List.append_eq_nil_iff.mp answered).2
        have waiting : w.disp.loop = .waiting := by
          cases loop : w.disp.loop with
          | waiting => rfl
          | exited => exact absurd loop exited
          | _ => simp [Dispatcher.work, loop, LoopPc.work] at idle
        have stopping : w.disp.stopping = true := point
        refine ⟨.service (.dispatch .exit),
          ⟨{ w with disp := { w.disp with loop := .exited } }, .stopping⟩, ?_, ?_⟩
        · simp [step, MainPc.lets, World.step, running, Dispatcher.loopStep, waiting, queue,
            stopping]
        · simp [rank, World.rank, Dispatcher.work, waiting, LoopPc.work, sole, MainPc.rank]
      · obtain ⟨act, disp, other, moved⟩ := Dispatcher.exists_loopStep idle exited
        refine ⟨.service (.dispatch act), ⟨{ w with disp }, .stopping⟩, ?_, ?_⟩
        · simp [step, MainPc.lets, World.step, running, moved]
        · obtain ⟨-, less, -⟩ | ⟨same, -⟩ := Dispatcher.work_loopStep moved
          · have stops := (Dispatcher.loopStep_frame moved).1
            simp only [rank, World.rank, exited, stops, if_false]
            split <;> omega
          · exact absurd same other

/-- Until `main` has returned, some step brings the process closer to its end or aborts it; once
the server has ended it is not aborted. -/
theorem Stage.progress (stage : Stage p.world p.main) (running : p.world.aborted = false)
    (open_ : p.main ≠ .ended) :
    ∃ event next, p.step event = some next ∧
      (next.world.aborted = true ∨ rank next < rank p) := by
  obtain ⟨w, main⟩ := p
  dsimp only at stage running open_
  cases main with
  | ended => exact absurd rfl open_
  | serving =>
    by_cases settled : w.Settled
    · refine ⟨.main, ⟨w, .cancelling⟩, ?_, .inr ?_⟩
      · simp [step, running, mainStep, settled]
      · simp [rank, MainPc.rank]
    · obtain ⟨alive, -⟩ := stage
      obtain ⟨event, v, ⟨own, -⟩, taken, closer⟩ :=
        alive.progress running fun rested => settled rested.settled
      refine ⟨.service event, ⟨v, .serving⟩, ?_, closer.imp_right (rank_service alive taken)⟩
      cases event <;> simp [step, MainPc.lets, taken]
  | cancelling =>
    refine ⟨.main, ⟨{ w with running := false }, .checking⟩, ?_, .inr ?_⟩
    · simp [step, running, mainStep]
    · simp [rank, World.rank, MainPc.rank]
  | checking =>
    cases held : w.handle with
    | some k =>
      refine ⟨.main, ⟨w, .joining⟩, ?_, .inr ?_⟩
      · simp [step, running, mainStep, held]
      · simp [rank, MainPc.rank]
    | none =>
      refine ⟨.main, enterStop w, ?_, .inr ?_⟩
      · simp [step, running, mainStep, held]
      · have closing : Closing w := stage
        simp [rank, World.rank, Dispatcher.work, MainPc.rank, enterStop, closing.fresh.1]
  | joining =>
    obtain ⟨closing, present⟩ := stage
    obtain ⟨k, held⟩ := Option.ne_none_iff_exists'.mp present
    have newest := closing.alive.sorted.joinable.newest k held
    obtain ⟨thread, found⟩ : ∃ thread, w.threads[k]? = some thread :=
      ⟨_, List.getElem?_eq_getElem (by omega)⟩
    by_cases exited : thread.job.pc = .exited
    · refine ⟨.main, enterStop { w with handle := none }, ?_, .inr ?_⟩
      · simp [step, running, mainStep, held, found, exited]
      · simp [rank, World.rank, Dispatcher.work, MainPc.rank, enterStop, closing.fresh.1]
    · obtain ⟨event, next, taken, closer⟩ := closing.progress found exited
      exact ⟨event, next, taken, .inr closer⟩
  | stopping =>
    obtain ⟨quiet, pc, halting⟩ := stage
    obtain ⟨event, next, taken, closer⟩ := quiet.progress halting
    exact ⟨event, next, taken, .inr closer⟩

/-- Once the server has ended the process is not aborted. -/
theorem Stage.running (stage : Stage p.world p.main) (closed : p.main ≠ .serving) :
    p.world.aborted = false := by
  obtain ⟨w, main⟩ := p
  cases main with
  | serving => exact absurd rfl closed
  | cancelling => exact Closing.running stage
  | checking => exact Closing.running stage
  | joining => exact stage.1.running
  | stopping => exact stage.1.running
  | ended => exact stage.1.running

/-- A step of the process does not lead back into the server. -/
theorem main_step (taken : p.step event = some next) (closed : p.main ≠ .serving) :
    next.main ≠ .serving := by
  obtain ⟨w, main⟩ := p
  cases event with
  | service event =>
    simp only [step] at taken
    split at taken
    · obtain ⟨v, -, rfl⟩ := Option.map_eq_some_iff.mp taken
      exact closed
    · contradiction
  | main =>
    simp only [step] at taken
    split at taken
    · contradiction
    · cases main with
      | serving => exact absurd rfl closed
      | cancelling =>
        cases taken
        simp
      | checking =>
        simp only [mainStep] at taken
        split at taken <;> cases taken <;> simp [enterStop]
      | joining =>
        simp only [mainStep] at taken
        split at taken
        · contradiction
        · split at taken
          · split at taken
            · cases taken
              simp [enterStop]
            · contradiction
          · contradiction
      | stopping =>
        simp only [mainStep, stopStep] at taken
        split at taken
        case h_4 =>
          cases taken
          simp
        case h_5 => contradiction
        all_goals
          obtain ⟨disp, -, rfl⟩ := Option.map_eq_some_iff.mp taken
          simp
      | ended => contradiction

/-- Shutdown is orderly. In every reachable state: once the job runner and the store are gone only
the dispatcher's worker can still move; once the dispatcher and the core are gone no thread can
move, and every task submitted has been answered; and once the server has ended, the process is
not aborted and can come to its end. -/
theorem shutdown_is_orderly (events : List ProcessEvent) (p : Process)
    (reached : Transition.run Process.step {} events = some p) :
    (p.main = .stopping → ∀ event next, p.step (.service event) = some next →
      ∃ act, event = .dispatch act) ∧
    (p.main = .ended → (∀ event, p.step event = none) ∧
      ∀ prom ∈ p.world.disp.tags, (p.world.disp.future prom).isSome = true) ∧
    (p.main ≠ .serving → p.world.aborted = false ∧ ∃ more final,
      Transition.run Process.step p more = some final ∧ final.main = .ended) := by
  have held := stage reached
  obtain ⟨w, main⟩ := p
  have barred {event : Event} (lets : main.lets event = true) (closed : main ≠ .serving) :
      ∀ request, event ≠ .request request := by
    rintro request rfl
    exact closed (by simpa [MainPc.lets] using lets)
  refine ⟨fun gone event next taken => ?_, fun gone => ⟨fun event => ?_, fun prom known => ?_⟩,
    fun closed => ?_⟩
  · obtain rfl : main = .stopping := gone
    simp only [step] at taken
    split at taken
    · rename_i lets
      obtain ⟨v, moved, -⟩ := Option.map_eq_some_iff.mp taken
      obtain ⟨act, -, same, -⟩ := held.1.only_dispatch (barred lets (by simp)) moved
      exact ⟨act, same⟩
    · contradiction
  · obtain rfl : main = .ended := gone
    obtain ⟨quiet, halting⟩ := held
    have exited : w.disp.loop = .exited := halting.point
    cases event with
    | main => simp [step, mainStep]
    | service event =>
      by_contra some_
      obtain ⟨next, taken⟩ := Option.ne_none_iff_exists'.mp some_
      simp only [step] at taken
      split at taken
      · rename_i lets
        obtain ⟨v, moved, -⟩ := Option.map_eq_some_iff.mp taken
        obtain ⟨act, disp, -, stepped, -⟩ := quiet.only_dispatch (barred lets (by simp)) moved
        cases act <;> simp [Dispatcher.loopStep, exited] at stepped
      · contradiction
  · obtain rfl : main = .ended := gone
    obtain ⟨quiet, halting⟩ := held
    have exited : w.disp.loop = .exited := halting.point
    have drained : w.disp.queue = [] := halting.drained exited
    have answered : prom ∈ w.disp.promises.map Prod.fst := by
      simpa [Dispatcher.tags, exited, LoopPc.held, drained] using known
    obtain ⟨entry, set, same⟩ := List.mem_map.mp answered
    simp only [Dispatcher.future, Option.isSome_map, List.find?_isSome]
    exact ⟨entry, set, by simpa using same⟩
  · refine ⟨held.running closed, ?_⟩
    obtain ⟨more, final, admitted, done⟩ := Transition.exists_rest
      (fun (_ : Process) (_ : ProcessEvent) => True)
      (fun p : Process => Stage p.world p.main ∧ p.main ≠ .serving) (fun p => p.main = .ended) rank
      (fun held _ taken => ⟨stage_step held.1 taken, main_step taken held.2⟩)
      (fun {state} held unended => by
        obtain ⟨event, next, taken, ended | closer⟩ :=
          held.1.progress (held.1.running held.2) unended
        · have running := (stage_step held.1 taken).running (main_step taken held.2)
          rw [running] at ended
          contradiction
        · exact ⟨event, next, trivial, taken, .inr closer⟩)
      ⟨held, closed⟩
    exact ⟨more, final, admitted.1, done⟩

/-- A job is running when the server ends. -/
def interrupted : List ProcessEvent :=
  (World.initCall 0 ++ (World.startCall 1 5000 fun _ => 0) ++
    [Event.job 0 (.clock 0)]).map .service ++ [.main, .main, .main]

/-- `main` is waiting for the job, and the process can come to its end. -/
theorem interrupted_ends : ∃ p, Transition.run Process.step {} interrupted = some p ∧
    p.main = .joining ∧ p.world.aborted = false ∧ ∃ more final,
      Transition.run Process.step p more = some final ∧ final.main = .ended := by
  have waits : (Transition.run Process.step {} interrupted).map Process.main = some .joining := by
    decide +kernel
  obtain ⟨p, reached, joining⟩ := Option.map_eq_some_iff.mp waits
  have orderly := (shutdown_is_orderly interrupted p reached).2.2 (by simp [joining])
  exact ⟨p, reached, joining, orderly⟩

end Process

end QrEdgeGateway
