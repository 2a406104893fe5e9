import QrEdgeGateway.Lib.Progress
import QrEdgeGateway.Verif.Latency
import QrEdgeGateway.Verif.ThreadHandle

/-!
# The service never deadlocks

A handler waits for its future, which the dispatcher's worker sets, or for a job worker, which
can always end: its flag is cleared, its device fails or its deadline passes. Neither of the two
waits for a handler. So from every state that calls of `JobRunner` reach one after the other, some
schedule, without new requests and without a handler that gives up, answers every request and ends
every job. Overlapping calls are left out: they may end the process in `std::terminate`, and of two
that wait in `join` for one thread only one is sure to return.
-/

namespace QrEdgeGateway

/-! ## A job worker can always end -/

/-- How far a call of `read_cobs_frame` is from its return, if the device fails. -/
def Reader.rank (r : Reader) : Nat :=
  match r.pc with
  | .reading => 0
  | .polled .failed => 0
  | .polled .error => 0
  | .polling => 1
  | .head => 2
  | .polled _ => 3
  | .returned _ => 0

/-- How far a job is from its end, if its device fails and its deadline has passed. -/
def Job.rank (j : Job) : Nat :=
  match j.pc with
  | .exited => 0
  | .finishing => 1
  | .clearing => 2
  | .storing _ => 3
  | .clock => 4
  | .head => 5
  | .decoding _ _ => 6
  | .opening _ => 6
  | .entry => 6
  | .closed _ _ => 7
  | .reading r => 8 + r.rank

namespace Reader

/-- The loop condition leads to the head of the loop or out of it. -/
theorem rank_again (r : Reader) : r.again.rank ≤ 2 := by
  unfold again
  split <;> simp [rank]

/-- Whatever the flag is, a call can come closer to its return. -/
theorem exists_step (r : Reader) (flag : Bool) (inside : ∀ got, r.pc ≠ .returned got) :
    ∃ obs next, obs.agrees flag = true ∧ r.step obs = some next ∧
      ((∃ got, next.pc = .returned got) ∨ next.rank < r.rank) := by
  cases here : r.pc with
  | head =>
    refine ⟨.running flag, _, by simp [Obs.agrees], by simp only [step, here]; rfl, ?_⟩
    cases flag with
    | false => exact .inl ⟨false, rfl⟩
    | true => exact .inr (by simp [rank, here])
  | polling =>
    exact ⟨.poll .failed, _, rfl, by simp only [step, here]; rfl, .inr (by simp [rank, here])⟩
  | reading => exact ⟨.read .failed, _, rfl, by simp only [step, here]; rfl, .inl ⟨false, rfl⟩⟩
  | returned got => exact absurd here (inside got)
  | polled result =>
    refine ⟨.running flag, _, by simp [Obs.agrees], by simp only [step, here]; rfl, ?_⟩
    cases flag with
    | false => exact .inl ⟨false, rfl⟩
    | true =>
      -- `EINTR` and a wait in vain lead to the head of the loop, an error leads out
      have looped : r.again.rank < 3 := Nat.lt_succ_of_le r.rank_again
      have charged : r.charge.rank < 3 := Nat.lt_succ_of_le (rank_again _)
      cases result with
      | failed | error => exact .inl ⟨false, rfl⟩
      | interrupted => exact .inr (by simpa [rank, here] using looped)
      | timeout | idle => exact .inr (by simpa [rank, here] using charged)
      | readable => exact .inr (by simp [rank, here])

end Reader

namespace Job

/-- A call that comes closer to its return brings the job closer to its end. -/
theorem rank_ofReader {j : Job} {r next : Reader}
    (closer : (∃ got, next.pc = .returned got) ∨ next.rank < r.rank) :
    { j with pc := .ofReader next }.rank < 8 + r.rank := by
  unfold JobPc.ofReader
  split
  · simp only [rank]
    omega
  · rename_i inside
    obtain ⟨got, returned⟩ | less := closer
    · exact absurd returned (inside got)
    · simp only [rank]
      omega

/-- The tests of a frame lead towards the end. -/
theorem rank_judge {j : Job} (got : Bool) (enc : Bytes) :
    { j with pc := judge got enc }.rank < 6 := by
  obtain same | ⟨payload, -, same⟩ := judge_cases got enc <;> simp [rank, same]

/-- Whatever the flag is, a job that has not ended can come closer to its end; a job inside
`read_cobs_frame` is never at a call that has returned. -/
theorem exists_step (j : Job) (flag : Bool) (running : j.Unfinished)
    (inside : ∀ r, j.pc = .reading r → ∀ got, r.pc ≠ .returned got) :
    ∃ obs k effect, obs.agrees flag = true ∧ j.step obs = some (k, effect) ∧
      k.rank < j.rank := by
  cases here : j.pc with
  | entry =>
    exact ⟨.clock 0, _, _, rfl, by simp only [step, here]; rfl, by simp [rank, here]⟩
  | head =>
    refine ⟨.running flag, _, _, by simp [Obs.agrees], by simp only [step, here]; rfl, ?_⟩
    cases flag <;> simp [rank, here]
  | clock =>
    refine ⟨.clock j.deadline, _, _, rfl, by simp only [step, here]; rfl, ?_⟩
    simp [rank, here]
  | opening remainingMs =>
    exact ⟨.opened false, _, _, rfl, by simp only [step, here]; rfl, by simp [rank, here]⟩
  | reading r =>
    obtain ⟨obs, next, agrees, moved, closer⟩ := r.exists_step flag (inside r here)
    refine ⟨obs, _, _, agrees, by simp only [step, here, moved]; rfl, ?_⟩
    simpa [rank, here] using rank_ofReader (j := j) closer
  | closed got enc =>
    refine ⟨.running flag, _, _, by simp [Obs.agrees], by simp only [step, here]; rfl, ?_⟩
    cases flag <;> simp [rank, here]
  | decoding got enc =>
    refine ⟨.tau, _, _, rfl, by simp only [step, here]; rfl, ?_⟩
    simpa [rank, here] using rank_judge (j := j) got enc
  | storing outcome => exact ⟨.tau, _, _, rfl, by simp only [step, here]; rfl, by simp [rank, here]⟩
  | clearing => exact ⟨.tau, _, _, rfl, by simp only [step, here]; rfl, by simp [rank, here]⟩
  | finishing => exact ⟨.tau, _, _, rfl, by simp only [step, here]; rfl, by simp [rank, here]⟩
  | exited => exact absurd here running

/-- A job inside `read_cobs_frame` is at a call that has not returned. -/
def Inside (j : Job) : Prop := ∀ r, j.pc = .reading r → ∀ got, r.pc ≠ .returned got

/-- A job leaves a call when it returns. -/
theorem inside_ofReader {j : Job} (next : Reader) : { j with pc := .ofReader next }.Inside := by
  intro r here got returned
  unfold JobPc.ofReader at here
  split at here
  · contradiction
  · rename_i running
    cases here
    exact running got returned

/-- Every step of a job keeps it so. -/
theorem inside_step {j k : Job} {obs : Obs} {effect : Effect}
    (moved : j.step obs = some (k, effect)) : k.Inside := by
  cases step_move moved with
  | enter here => exact inside_ofReader _
  | read here stepped => exact inside_ofReader _
  | @test got enc here =>
    obtain same | ⟨payload, -, same⟩ := judge_cases got enc <;> simp [Inside, same]
  | _ => simp [Inside]

end Job

/-! ## What the progress rests on -/

/-- A handler that is to submit a task has one. -/
def Handler.Asks (hd : Handler) : Prop :=
  match hd.pc with
  | .rejecting => True
  | .looking _ => True
  | .fetching _ => True
  | .answered _ => True
  | _ => (hd.request.task ()).isSome = true

/-- A request enters with its task, or where it needs none. -/
theorem Request.asks_entry (request : Request) : (⟨request, request.entry⟩ : Handler).Asks := by
  cases request with
  | command cmd baud =>
    have asks : ((Request.command cmd baud).task ()).isSome = true := rfl
    obtain here | here | ⟨_, here⟩ | ⟨_, here⟩ | here := (Request.command cmd baud).entry_cases
    all_goals simp [Handler.Asks, here, asks]
  | start timeoutMs => rfl
  | stop => rfl
  | result id => trivial
  | malformed => trivial

/-- A handler with a task keeps it wherever it goes. -/
theorem Handler.asks_of_task {request : Request} (pc : RestPc)
    (asks : (request.task ()).isSome = true) : (⟨request, pc⟩ : Handler).Asks := by
  unfold Handler.Asks
  split <;> trivial

/-- What a request asks for does not depend on the promise. -/
theorem Request.task_isSome {request : Request} (asks : (request.task ()).isSome = true)
    (h : Nat) : ∃ task, request.task (Submitter.handler h) = some task := by
  cases request with
  | start timeoutMs => exact ⟨_, rfl⟩
  | stop => exact ⟨_, rfl⟩
  | command cmd baud => exact ⟨_, rfl⟩
  | result id => contradiction
  | malformed => contradiction

namespace World

variable {w next : World} {event : Event} {events : List Event}

/-- Every wait of the service is for somebody who can move. -/
structure Alive (w : World) : Prop where
  /-- Promises, control points and the thread object are in order. -/
  sorted : w.Sorted
  /-- Records are there. -/
  recorded : Recorded w.store w.threads w.handlers
  /-- A handler that is to submit a task has one. -/
  asks : Table.All w.handlers fun _ hd => hd.Asks
  /-- A handler that waits has submitted its task. -/
  posted : Table.All w.handlers fun h hd => hd.pc = .awaiting → .handler h ∈ w.disp.tags
  /-- A job inside `read_cobs_frame` is at a call that has not returned. -/
  inside : Table.All w.threads fun _ thread => thread.job.Inside
  /-- The dispatcher is not being stopped. -/
  running : w.disp.stopping = false ∧ w.disp.loop ≠ .exited

/-- Handlers keep their tasks. -/
theorem asks_step (held : Table.All w.handlers fun _ hd => hd.Asks)
    (taken : w.step event = some next) : Table.All next.handlers fun _ hd => hd.Asks := by
  cases (step_move taken).2 with
  | arrive request => exact held.spawn request.asks_entry
  | reject here | reply here | miss here absent | fetch here found | fetchFail here absent
  | look here present | giveUp here unset | joinFail here free => exact held.set trivial
  | terminate here same | work found agrees moved | write found moved written
  | writeFail found moved unwritten | clear found moved | finish found moved
  | dispatch moved => exact held
  | create rd here =>
    have asks := held _ _ here
    exact held.set (Handler.asks_of_task _ asks)
  | _ here =>
    have asks := held _ _ here
    exact held.set (Handler.asks_of_task _ asks)

/-- Promises once known stay known. -/
theorem tags_step (taken : w.step event = some next) : w.disp.tags ⊆ next.disp.tags := by
  cases (step_move taken).2 with
  | submit here asked =>
    show w.disp.tags ⊆ (w.disp.push _).tags
    simp
  | finish found moved =>
    show w.disp.tags ⊆ (w.disp.push _).tags
    simp
  | dispatch moved =>
    show w.disp.tags ⊆ _
    rw [Dispatcher.tags_loopStep moved]
    exact List.Subset.refl _
  | _ => exact List.Subset.refl _

/-- A handler that waits has submitted its task. -/
theorem posted_step
    (held : Table.All w.handlers fun h hd => hd.pc = .awaiting → .handler h ∈ w.disp.tags)
    (taken : w.step event = some next) :
    Table.All next.handlers fun h hd => hd.pc = .awaiting → .handler h ∈ next.disp.tags := by
  have kept : Table.All w.handlers fun h hd =>
      hd.pc = .awaiting → Submitter.handler h ∈ next.disp.tags :=
    held.mono fun h hd _ posted waiting => tags_step taken (posted waiting)
  cases (step_move taken).2 with
  | arrive request =>
    apply kept.spawn
    intro waiting
    obtain here | here | ⟨_, here⟩ | ⟨_, here⟩ | here := request.entry_cases
    all_goals
      rw [show (Handler.mk request request.entry).pc = request.entry from rfl, here] at waiting
      contradiction
  | @submit h request task here asked =>
    apply kept.set
    intro _
    show Submitter.handler h ∈ (w.disp.push task).tags
    simp [Request.task_prom asked]
  | @receive h request r here ready =>
    apply kept.set
    intro waiting
    obtain same | ⟨reply, same⟩ := request.onResponse_cases r
    all_goals
      rw [show (Handler.mk request (request.onResponse r)).pc = _ from same] at waiting
      contradiction
  | @idle h request here free | @join h k request thread here held' found exited =>
    apply kept.set
    intro waiting
    cases request <;> contradiction
  | terminate here same | work found agrees moved | write found moved written
  | writeFail found moved unwritten | clear found moved | finish found moved
  | dispatch moved => exact kept
  | _ here => exact kept.set (by simp)

/-- Jobs inside a call are inside it. -/
theorem inside_step (held : Table.All w.threads fun _ thread => thread.job.Inside)
    (taken : w.step event = some next) :
    Table.All next.threads fun _ thread => thread.job.Inside := by
  cases (step_move taken).2 with
  | launch here free => exact held.spawn (by simp [Job.Inside])
  | work found agrees moved => exact held.set (Job.inside_step moved)
  | write found moved written => exact held.set (Job.inside_step moved)
  | writeFail found moved unwritten => exact held.set (Job.inside_step moved)
  | clear found moved => exact held.set (Job.inside_step moved)
  | finish found moved => exact held.set (Job.inside_step moved)
  | _ => exact held

/-- The service never stops its dispatcher. -/
theorem running_step (held : w.disp.stopping = false ∧ w.disp.loop ≠ .exited)
    (taken : w.step event = some next) :
    next.disp.stopping = false ∧ next.disp.loop ≠ .exited := by
  cases (step_move taken).2 with
  | dispatch moved =>
    refine ⟨(Dispatcher.loopStep_frame moved).2.1.trans held.1, fun exited => ?_⟩
    have stopping := (Dispatcher.exit_of_exited moved exited).2.2
    rw [held.1] at stopping
    contradiction
  | _ => exact held

/-- Every step keeps every wait for somebody who can move. -/
theorem Alive.step (alive : w.Alive) (taken : w.step event = some next) : next.Alive where
  sorted := alive.sorted.step taken
  recorded := alive.recorded.step taken
  asks := asks_step alive.asks taken
  posted := posted_step alive.posted taken
  inside := inside_step alive.inside taken
  running := running_step alive.running taken

/-- It is so in every reachable state. -/
theorem alive (reached : Transition.run World.step {} events = some w) : w.Alive := by
  refine Transition.run_stable Alive Alive.step ?_ reached
  refine ⟨sorted Transition.run_nil, recorded Transition.run_nil, ?_, ?_, ?_, ?_⟩
  all_goals simp

end World

/-! ## Every move leads on -/

/-- The event is a handler's move towards its answer. -/
def Event.handles : Event → Bool
  | .handler _ => true
  | .draw _ _ => true
  | _ => false

/-- The event is a move of the service: not a new request, and no handler gives up. -/
def Event.own : Event → Bool
  | .request _ => false
  | .giveUp _ => false
  | _ => true

/-- How far a handler is from its answer. A `/start` submits first and then calls
`JobRunner::start`; a stop calls `JobRunner::stop` first and then submits. -/
def RestPc.rank (starts : Bool) : RestPc → Nat
  | .answered _ => 0
  | .rejecting => 1
  | .fetching _ => 1
  | .replying _ => 1
  | .looking _ => 2
  | .launching _ => 26
  | .arming _ => 27
  | .creating => 28
  | .joining => if starts then 29 else 6
  | .checking => if starts then 30 else 7
  | .cancelling => if starts then 31 else 8
  | .awaiting => if starts then 32 else 1
  | .submitting => if starts then 36 else 5
  | .configuring _ => if starts then 37 else 6

/-- How far a handler is from its answer. -/
def Handler.rank (hd : Handler) : Nat := hd.pc.rank hd.request.starts

/-- After the join a handler is closer to its answer. -/
theorem Request.rank_afterStop (request : Request) :
    request.afterStop.rank request.starts < RestPc.joining.rank request.starts := by
  cases request <;> simp [afterStop, RestPc.rank, starts]

/-- With its response a handler is closer to its answer. -/
theorem Request.rank_onResponse (request : Request) (r : Response) :
    (request.onResponse r).rank request.starts < RestPc.awaiting.rank request.starts := by
  cases request with
  | start timeoutMs => cases ok : r.ok <;> simp [onResponse, ok, RestPc.rank, starts]
  | _ => simp [onResponse, RestPc.rank, starts]

namespace World

variable {w v next : World} {event : Event} {events : List Event}

/-- How far the service is from rest. A job's step can push a task, and a start brings a job. -/
def rank (w : World) : Nat :=
  Table.total Handler.rank w.handlers + Table.total (fun thread => 4 * thread.job.rank) w.threads +
    w.disp.work

/-- A handler that comes closer to its answer by more than what it leaves to others. -/
theorem rank_moveTo {h : Nat} (extra : Nat) {request : Request} {pc pc' : RestPc}
    (here : v.handlers[h]? = some ⟨request, pc⟩) (grown : v.rank = w.rank + extra)
    (less : pc'.rank request.starts + extra < pc.rank request.starts) :
    (v.moveTo h request pc').rank < w.rank := by
  have moved := Table.total_set Handler.rank ⟨request, pc'⟩ here
  simp only [Handler.rank] at moved
  simp only [rank, moveTo] at grown ⊢
  omega

/-- A job that comes closer to its end. -/
theorem rank_job {k : Nat} {thread : Thread} {job : Job}
    (found : v.threads[k]? = some thread) (less : job.rank < thread.job.rank) :
    { v with threads := v.threads.set k { thread with job } }.rank + 4 ≤ v.rank := by
  have moved := Table.total_set (fun thread : Thread => 4 * thread.job.rank)
    { thread with job } found
  simp only at moved
  simp only [rank]
  omega

/-- A step of a handler brings the service closer to rest, or ends the process. -/
theorem rank_handles (mine : event.handles = true) (taken : w.step event = some next) :
    next.aborted = true ∨ next.rank < w.rank := by
  cases (step_move taken).2 with
  | terminate here held => exact .inl rfl
  | receive here ready => exact .inr (rank_moveTo 0 here rfl (Request.rank_onResponse _ _))
  | join here held found exited =>
    exact .inr (rank_moveTo 0 here rfl (Request.rank_afterStop _))
  | @idle h request here free =>
    refine .inr (rank_moveTo 0 here rfl (Nat.lt_trans request.rank_afterStop ?_))
    simp only [RestPc.rank]
    split <;> omega
  | @submit h request task here asked =>
    refine .inr (rank_moveTo 3 here ?_ ?_)
    · show _ + (w.disp.push task).work = _
      rw [Dispatcher.work_push]
      rfl
    · simp only [RestPc.rank]
      split <;> omega
  | @launch h request id here free =>
    refine .inr (rank_moveTo 24 here ?_ (by simp [RestPc.rank]))
    simp only [rank, Table.total_spawn, Job.rank]
    omega
  | create rd here => exact .inr (rank_moveTo 0 here rfl (by simp [RestPc.rank]))
  | reject here | configure here | cancel here | arm here | reply here | wait here held
  | joinFail here free | look here present | miss here absent | fetch here found
  | fetchFail here absent =>
    refine .inr (rank_moveTo 0 here rfl ?_)
    simp only [RestPc.rank]
    first | omega | (split <;> omega)
  | _ => contradiction

/-- A job's step towards its end brings the service closer to rest, or ends the process. -/
theorem exists_jobStep (running : w.aborted = false) {k : Nat} {thread : Thread}
    (found : w.threads[k]? = some thread) (unfinished : thread.job.Unfinished)
    (inside : thread.job.Inside) :
    ∃ obs next, w.step (.job k obs) = some next ∧ (next.aborted = true ∨ next.rank < w.rank) := by
  obtain ⟨obs, job, effect, agrees, moved, less⟩ :=
    thread.job.exists_step w.running unfinished inside
  have closer := rank_job found less
  have taken : w.step (.job k obs) = some ({ w with
      threads := w.threads.set k { thread with job } }.applyEffect k job.id effect) := by
    simp [step, running, jobStep, found, agrees, moved]
  refine ⟨obs, _, taken, ?_⟩
  simp only [rank] at closer
  cases effect with
  | silent =>
    refine .inr ?_
    simp only [applyEffect, rank]
    omega
  | write outcome =>
    simp only [applyEffect]
    split
    · refine .inr ?_
      simp only [rank]
      omega
    · exact .inl rfl
  | clearRunning =>
    refine .inr ?_
    simp only [applyEffect, rank]
    omega
  | submitFinish =>
    refine .inr ?_
    simp only [applyEffect, rank, Dispatcher.work_push]
    omega

/-- A step of the dispatcher's worker brings the service closer to rest. -/
theorem exists_dispatch (running : w.aborted = false) (busy : w.disp.work ≠ 0)
    (alive : w.Alive) : ∃ act next, w.step (.dispatch act) = some next ∧ next.rank < w.rank := by
  obtain ⟨act, disp, other, moved⟩ := Dispatcher.exists_loopStep busy alive.running.2
  refine ⟨act, _, by simp only [step, running, moved]; rfl, ?_⟩
  obtain ⟨-, less, -⟩ | ⟨same, -⟩ := Dispatcher.work_loopStep moved
  · simp only [rank]
    omega
  · exact absurd same other

/-- A handler that waits for an idle dispatcher has its response. -/
theorem exists_response (alive : w.Alive) (idle : w.disp.work = 0) {h : Nat} {request : Request}
    (here : w.handlers[h]? = some ⟨request, .awaiting⟩) :
    ∃ r, w.disp.future (.handler h) = some r := by
  have posted := alive.posted h _ here rfl
  have answered := Dispatcher.unanswered_of_idle idle
  unfold Dispatcher.unanswered at answered
  rw [Dispatcher.tags, answered, List.map_nil, List.append_nil] at posted
  obtain ⟨⟨prom, r⟩, set, rfl⟩ := List.mem_map.mp posted
  exact ⟨r, Dispatcher.future_of_mem alive.sorted.ticketed.distinct set⟩

/-- Once the dispatcher is idle and every job has ended, a handler that has not answered can
move. -/
theorem exists_handles (alive : w.Alive) (running : w.aborted = false) (idle : w.disp.work = 0)
    (ended : Table.All w.threads fun _ thread => thread.job.pc = .exited) {h : Nat} {hd : Handler}
    (here : w.handlers[h]? = some hd) (undone : hd.done = false) :
    ∃ event next, (event = .handler h ∨ ∃ rd, event = .draw h rd) ∧
      w.step event = some next := by
  obtain ⟨request, pc⟩ := hd
  have asks := alive.asks h _ here
  cases pc with
  | answered reply => contradiction
  | creating =>
    exact ⟨.draw h fun _ => 0, _, .inr ⟨_, rfl⟩, by simp only [step, running, here]; rfl⟩
  | submitting =>
    obtain ⟨task, asked⟩ := Request.task_isSome asks h
    exact ⟨.handler h, _, .inl rfl, by
      simp only [step, running, here, handlerStep, asked]; rfl⟩
  | awaiting =>
    obtain ⟨r, ready⟩ := exists_response alive idle here
    exact ⟨.handler h, _, .inl rfl, by
      simp only [step, running, here, handlerStep, ready]; rfl⟩
  | joining =>
    cases held : w.handle with
    | none =>
      exact ⟨.handler h, _, .inl rfl, by simp only [step, running, here, handlerStep, held]; rfl⟩
    | some k =>
      have newest := alive.sorted.joinable.newest k held
      obtain ⟨thread, found⟩ : ∃ thread, w.threads[k]? = some thread :=
        ⟨_, List.getElem?_eq_getElem (by omega)⟩
      have exited := ended k thread found
      exact ⟨.handler h, _, .inl rfl, by
        simp only [step, running, here, handlerStep, held, found, exited]; rfl⟩
  | launching id =>
    cases held : w.handle <;>
      exact ⟨.handler h, _, .inl rfl, by simp only [step, running, here, handlerStep, held]; rfl⟩
  | fetching id =>
    cases found : w.store.get id <;>
      exact ⟨.handler h, _, .inl rfl, by simp only [step, running, here, handlerStep, found]; rfl⟩
  | _ => exact ⟨.handler h, _, .inl rfl, by simp only [step, running, here, handlerStep]; rfl⟩

/-- Nothing is under way: every request is answered, the dispatcher is idle, every job has
ended. -/
structure Resting (w : World) : Prop where
  /-- Every request is answered. -/
  settled : w.Settled
  /-- The dispatcher is idle. -/
  drained : w.Drained
  /-- Every job worker has exited. -/
  ended : Table.All w.threads fun _ thread => thread.job.pc = .exited

/-- A handler in the runner does not begin a call of it. -/
theorem intrudes_of_inRunner {h : Nat} {hd : Handler} (here : w.handlers[h]? = some hd)
    (inside : hd.pc.inRunner = true) : w.intrudes (.handler h) = false := by
  obtain ⟨request, pc⟩ := hd
  cases pc <;> first | contradiction | simp [intrudes, here]

/-- While no handler is in the runner, none overlaps another. -/
theorem intrudes_of_free (free : ¬ Table.Any w.handlers fun _ hd => hd.pc.inRunner = true) :
    w.intrudes event = false := by
  unfold intrudes
  split
  · split
    · simpa using free
    · rfl
  · rfl

/-- As long as something is under way, some move of the service that does not overlap calls of
`JobRunner` brings it closer to rest, or ends the process. -/
theorem Alive.progress (alive : w.Alive) (running : w.aborted = false) (busy : ¬ w.Resting) :
    ∃ event next, (event.own = true ∧ w.intrudes event = false) ∧ w.step event = some next ∧
      (next.aborted = true ∨ next.rank < w.rank) := by
  -- first the dispatcher's worker, then the job workers, then a call of `JobRunner` under way
  by_cases idle : w.disp.work = 0
  · by_cases ended : Table.All w.threads fun _ thread => thread.job.pc = .exited
    · have chosen : ∃ h hd, w.handlers[h]? = some hd ∧ hd.done = false ∧
          w.intrudes (.handler h) = false := by
        by_cases free : Table.Any w.handlers fun _ hd => hd.pc.inRunner = true
        · obtain ⟨h, ⟨request, pc⟩, here, inside⟩ := free
          refine ⟨h, _, here, ?_, intrudes_of_inRunner here inside⟩
          cases pc <;> first | rfl | contradiction
        · by_contra stuck
          apply busy
          refine ⟨fun h hd here => ?_, ?_, ended⟩
          · by_contra undone
            exact stuck ⟨h, hd, here, by simpa using undone, intrudes_of_free free⟩
          · have answered := Dispatcher.unanswered_of_idle idle
            have empty : w.disp.queue = [] := (List.append_eq_nil_iff.mp answered).2
            refine ⟨empty, ?_⟩
            cases loop : w.disp.loop with
            | waiting => rfl
            | exited => exact absurd loop alive.running.2
            | _ => simp [Dispatcher.work, loop, LoopPc.work] at idle
      obtain ⟨h, hd, here, undone, apart⟩ := chosen
      obtain ⟨event, next, which, taken⟩ := exists_handles alive running idle ended here undone
      obtain rfl | ⟨rd, rfl⟩ := which
      · exact ⟨_, next, ⟨rfl, apart⟩, taken, rank_handles rfl taken⟩
      · exact ⟨_, next, ⟨rfl, rfl⟩, taken, rank_handles rfl taken⟩
    · obtain ⟨k, thread, found, unfinished⟩ :
          ∃ (k : Nat) (thread : Thread), w.threads[k]? = some thread ∧ thread.job.Unfinished := by
        simpa [Table.All, Job.Unfinished] using ended
      obtain ⟨obs, next, taken, closer⟩ :=
        exists_jobStep running found unfinished (alive.inside k thread found)
      exact ⟨_, next, ⟨rfl, rfl⟩, taken, closer⟩
  · obtain ⟨act, next, taken, closer⟩ := exists_dispatch running idle alive
    exact ⟨_, next, ⟨rfl, rfl⟩, taken, .inr closer⟩

/-- A step of calls that do not overlap does not end the process. -/
theorem aborted_step (alive : w.Alive) (exclusive : Exclusive w.handle w.handlers)
    (taken : w.step event = some next) : next.aborted = false := by
  have running := (step_move taken).1
  cases (step_move taken).2 with
  | terminate here held =>
    have free := exclusive.frees _ _ here rfl
    rw [free] at held
    contradiction
  | writeFail found moved unwritten =>
    have present : (w.store.get _).isSome = true := alive.recorded.worker _ _ found
    rw [← (Job.of_write moved).1, ← JobStore.write_isSome, unwritten] at present
    contradiction
  | _ => exact running

/-- What holds as long as calls of `JobRunner` have not overlapped. -/
structure Unbroken (w : World) : Prop where
  /-- Every wait is for somebody who can move. -/
  alive : w.Alive
  /-- A call has the thread object to itself. -/
  exclusive : Exclusive w.handle w.handlers
  /-- The process has not ended. -/
  running : w.aborted = false

/-- A step that does not overlap calls keeps it. -/
theorem Unbroken.step (held : w.Unbroken) (apart : w.intrudes event = false)
    (taken : w.step event = some next) : next.Unbroken :=
  ⟨held.alive.step taken, held.exclusive.step apart taken,
    aborted_step held.alive held.exclusive taken⟩

/-- It holds at the start. -/
theorem unbroken_start : ({} : World).Unbroken := by
  refine ⟨alive Transition.run_nil, ⟨fun i j a b found => ?_, by simp, by simp⟩, rfl⟩
  simp at found

/-- As long as something is under way, such a step brings the service closer to rest. -/
theorem Unbroken.progress (held : w.Unbroken) (busy : ¬ w.Resting) :
    ∃ event next, (event.own = true ∧ w.intrudes event = false) ∧ w.step event = some next ∧
      next.rank < w.rank := by
  obtain ⟨event, next, fits, taken, ended | less⟩ := held.alive.progress held.running busy
  · have running := (held.step fits.2 taken).running
    rw [ended] at running
    contradiction
  · exact ⟨event, next, fits, taken, less⟩

/-- The service does not deadlock while calls of `JobRunner` follow one another. Whatever else has
happened, moves of the service alone, without a new request, without a handler giving up and again
without overlapping calls, can answer every request, drain the dispatcher and end every job, and
the process goes on. -/
theorem service_never_deadlocks (events : List Event) (w : World)
    (reached : Transition.run World.step {} events = some w)
    (apart : Transition.Along World.step (fun w event => w.intrudes event = false) {} events) :
    ∃ more final, Transition.Admits World.step
        (fun w event => event.own = true ∧ w.intrudes event = false) w more final ∧
      final.Resting ∧ final.aborted = false := by
  have before : w.Unbroken :=
    Transition.run_invariant Unbroken Unbroken.step unbroken_start reached apart
  obtain ⟨more, final, admitted, rests⟩ := Transition.exists_rest
    (fun (w : World) event => event.own = true ∧ w.intrudes event = false) Unbroken Resting rank
    (fun held fits taken => held.step fits.2 taken)
    (fun {state} held busy => by
      obtain ⟨event, next, fits, taken, less⟩ := held.progress busy
      exact ⟨event, next, fits, taken, .inr less⟩)
    before
  have after : final.Unbroken := Transition.run_invariant Unbroken
    (fun held fits taken => held.step fits.2 taken) before admitted.1 admitted.2
  exact ⟨more, final, admitted, rests, after.running⟩

/-- A job is running, a stop has cleared the flag and another start is queued. -/
def midway : List Event :=
  initCall 0 ++ (startCall 1 5000 fun _ => 0) ++
    [.request .stop, .request (.start 7), .handler 2, .handler 3]

/-- It can go on to rest, and the process does not end. -/
theorem midway_comes_to_rest : ∃ w, Transition.run World.step {} midway = some w ∧
    ¬ w.Settled ∧ ∃ more final, Transition.run World.step w more = some final ∧
      final.Resting ∧ final.aborted = false := by
  obtain ⟨w, reached, pending⟩ : ∃ w, Transition.run World.step {} midway = some w ∧
      ¬ w.Settled := ⟨_, rfl, by decide⟩
  obtain ⟨more, final, admitted, rests, running⟩ :=
    service_never_deadlocks midway w reached (by decide)
  exact ⟨w, reached, pending, more, final, admitted.1, rests, running⟩

end World

end QrEdgeGateway
