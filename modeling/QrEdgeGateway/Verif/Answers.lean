import QrEdgeGateway.Verif.Acceptance

/-!
# Where answers come from

A promise is set to what the core answered to its handler's own task, so the status of a reply
tells what happened to the request: a stop that is answered at all is answered 200, 500 or 503,
and a start is answered 202 only after its worker was launched. Every worker runs with the
timeout of the request that launched it.
-/

namespace QrEdgeGateway

namespace Dispatcher

variable {π : Type} {d next : Dispatcher π} {core : Core} {task other : Task π}

/-! ## The core a task meets -/

/-- A response exists only for a promise that was pushed. -/
theorem Given.mem_tags {prom : π} {r : Response} (given : d.Given prom r) : prom ∈ d.tags := by
  obtain ⟨task, executed, rfl⟩ | set := given
  · exact prom_mem_tags (by simp [unanswered, executed, LoopPc.held])
  · exact List.mem_append_left _ (List.mem_map_of_mem (f := Prod.fst) set)

/-- The task is answered from this core: the tasks still before it lead there, or it has its
response. -/
def AnsweredFrom (core : Core) (task : Task π) (d : Dispatcher π) : Prop :=
  (∃ before after, d.unexecuted = before ++ task :: after ∧
    Mealy.final Task.execute d.core before = core ∧ ∀ r, ¬ d.Given task.prom r) ∨
  ((∀ other ∈ d.unexecuted, other.prom ≠ task.prom) ∧
    ∀ r, d.Given task.prom r → r = (task.execute core).2)

/-- A task just pushed meets the core that the tasks before it leave. -/
theorem answeredFrom_push (fresh : task.prom ∉ d.tags) :
    AnsweredFrom (Mealy.final Task.execute d.core d.unexecuted) task (d.push task) := by
  refine .inl ⟨d.unexecuted, [], unexecuted_push d task, rfl, fun r given => ?_⟩
  have before : d.Given task.prom r := given
  exact fresh before.mem_tags

/-- A later push changes nothing for it. -/
theorem AnsweredFrom.push (held : AnsweredFrom core task d) (apart : other.prom ≠ task.prom) :
    AnsweredFrom core task (d.push other) := by
  obtain ⟨before, after, split, same, open'⟩ | ⟨past, answer⟩ := held
  · refine .inl ⟨before, after ++ [other], ?_, same, open'⟩
    simp [split]
  · refine .inr ⟨fun pending member => ?_, answer⟩
    rw [unexecuted_push, List.mem_append, List.mem_singleton] at member
    obtain old | rfl := member
    · exact past pending old
    · exact apart

/-- Tasks not executed have different promises. -/
theorem unexecuted_nodup (distinct : d.tags.Nodup) : (d.unexecuted.map Task.prom).Nodup := by
  refine List.Nodup.sublist (List.Sublist.map _ ?_) (List.nodup_append.mp distinct).2.1
  unfold unexecuted
  cases d.loop <;> simp [LoopPc.held]

/-- Every step of the worker leads the task to the core it is to meet. -/
theorem AnsweredFrom.loopStep {act : LoopAct} (held : AnsweredFrom core task d)
    (distinct : d.tags.Nodup) (moved : d.loopStep act = some next) :
    AnsweredFrom core task next := by
  have given := given_loopStep moved task.prom
  obtain ⟨other, same, rest⟩ | ⟨head, rfl, taken, executed, rest⟩ := unexecuted_loopStep moved
  · have kept : ∀ r, next.Given task.prom r → d.Given task.prom r := by
      intro r later
      obtain before | ⟨_, execute, -⟩ := (given r).mp later
      · exact before
      · exact absurd execute other
    obtain ⟨before, after, split, leads, open'⟩ | ⟨past, answer⟩ := held
    · exact .inl ⟨before, after, rest.trans split, same ▸ leads, fun r g => open' r (kept r g)⟩
    · exact .inr ⟨rest.symm ▸ past, fun r g => answer r (kept r g)⟩
  · have apart := unexecuted_nodup distinct
    rw [rest, List.map_cons, List.nodup_cons] at apart
    have kept : head.prom ≠ task.prom → ∀ r, next.Given task.prom r → d.Given task.prom r := by
      intro differs r later
      obtain before | ⟨_, -, same, own, -⟩ := (given r).mp later
      · exact before
      · obtain rfl := LoopPc.taken.inj (taken.symm.trans same)
        exact absurd own differs
    obtain ⟨before, after, split, leads, open'⟩ | ⟨past, answer⟩ := held
    · rw [rest] at split
      cases before with
      | nil =>
        -- its turn has come
        obtain ⟨rfl, behind⟩ := List.cons.inj split
        refine .inr ⟨fun other member same => ?_, fun r later => ?_⟩
        · exact apart.1 (same ▸ List.mem_map_of_mem member)
        · obtain before | ⟨_, -, same, -, rfl⟩ := (given r).mp later
          · exact absurd before (open' r)
          · obtain rfl := LoopPc.taken.inj (taken.symm.trans same)
            rw [← leads]
            rfl
      | cons first others =>
        obtain ⟨rfl, behind⟩ := List.cons.inj split
        have differs : head.prom ≠ task.prom := fun same =>
          apart.1 (by rw [behind]; simp [same])
        refine .inl ⟨others, after, behind, ?_, fun r later => open' r (kept differs r later)⟩
        rw [executed, ← leads]
        rfl
    · refine .inr ⟨fun other member => past other (by simp [rest, member]), fun r later => ?_⟩
      exact answer r (kept (past head (by simp [rest])) r later)

/-- A response is the core's answer to the task, and the task has been executed. -/
theorem AnsweredFrom.response {r : Response} (held : AnsweredFrom core task d)
    (given : d.Given task.prom r) :
    r = (task.execute core).2 ∧ ∀ other ∈ d.unexecuted, other.prom ≠ task.prom := by
  obtain ⟨_, _, _, _, open'⟩ | ⟨past, answer⟩ := held
  · exact absurd given (open' r)
  · exact ⟨answer r given, past⟩

end Dispatcher

namespace World

variable {w next : World} {event : Event} {events : List Event}

/-! ## Promises -/

/-- Every response to a handler is the core's to the task of that handler. -/
def Answers (disp : Dispatcher Submitter) (handlers : List Handler) : Prop :=
  ∀ h r, disp.Given (.handler h) r →
    ∃ (hd : Handler) (task : Task Submitter) (core : Core),
      handlers[h]? = some hd ∧ hd.request.task (.handler h) = some task ∧
        r = (task.execute core).2

namespace Answers

variable {disp after : Dispatcher Submitter} {handlers : List Handler} {h : Nat}
  {request : Request} {pc pc' : RestPc}

/-- A handler's step keeps its request. -/
theorem move (held : Answers disp handlers) (here : handlers[h]? = some ⟨request, pc⟩) :
    Answers disp (handlers.set h ⟨request, pc'⟩) := by
  intro i r given
  obtain ⟨hd, task, core, found, asked, same⟩ := held i r given
  by_cases own : i = h
  · subst own
    obtain rfl := Option.some.inj (found.symm.trans here)
    exact ⟨_, task, core, Table.get_set_self here, asked, same⟩
  · exact ⟨hd, task, core, (Table.get_set_other own).trans found, asked, same⟩

/-- The worker answers a task with what the core said to it. -/
theorem dispatch {threads : List Thread} {act : LoopAct} (held : Answers disp handlers)
    (ticketed : Ticketed disp threads handlers) (moved : disp.loopStep act = some after) :
    Answers after handlers := by
  intro h r given
  obtain before | ⟨task, -, taken, own, rfl⟩ := (Dispatcher.given_loopStep moved _ r).mp given
  · exact held h r before
  · have pending : task ∈ disp.unanswered := by simp [Dispatcher.unanswered, taken, LoopPc.held]
    obtain ⟨i, hd, found, asked⟩ | ⟨k, rfl⟩ := ticketed.asked task pending
    · have same := (Request.task_prom asked).symm.trans own
      cases same
      exact ⟨hd, task, disp.core, found, asked, rfl⟩
    · contradiction

end Answers

/-- Every step keeps the responses right. -/
theorem Answers.step (held : Answers w.disp w.handlers)
    (ticketed : Ticketed w.disp w.threads w.handlers) (taken : w.step event = some next) :
    Answers next.disp next.handlers := by
  cases (step_move taken).2 with
  | arrive request =>
    intro h r given
    obtain ⟨hd, task, core, found, rest⟩ := held h r given
    exact ⟨hd, task, core, Table.get_spawn_old found, rest⟩
  | terminate here same | work found agrees moved | write found moved written
  | writeFail found moved unwritten | clear found moved | finish found moved => exact held
  | dispatch moved => exact held.dispatch ticketed moved
  | create rd here => exact held.move here
  | _ here => exact held.move here

/-- What a handler receives is the core's response to its own task. -/
theorem Answers.own {h : Nat} {request : Request} {pc : RestPc} {r : Response}
    (held : Answers w.disp w.handlers) (here : w.handlers[h]? = some ⟨request, pc⟩)
    (ready : w.disp.future (.handler h) = some r) :
    ∃ (task : Task Submitter) (core : Core), request.task (.handler h) = some task ∧
      r = (task.execute core).2 := by
  obtain ⟨hd, task, core, found, asked, same⟩ := held h r (.inr (Dispatcher.mem_of_future ready))
  obtain rfl := Option.some.inj (found.symm.trans here)
  exact ⟨task, core, asked, same⟩

end World

/-! ## Replies -/

/-- A stop request passes only these control points, and these are its replies. -/
def Handler.StopRoute (hd : Handler) : Prop :=
  hd.request.stops = true →
    match hd.pc with
    | .cancelling => True
    | .checking => True
    | .joining => True
    | .submitting => True
    | .awaiting => True
    | .answered reply => reply.status = 200 ∨ reply.status = 500 ∨ reply.status = 503
    | _ => False

/-- A malformed request is answered 400 and nothing else. -/
def Handler.RefusalRoute (hd : Handler) : Prop :=
  hd.request = .malformed →
    match hd.pc with
    | .rejecting => True
    | .answered reply => reply.status = 400
    | _ => False

/-- The core answers a stopping task with 200. -/
theorem Request.status_of_stops {π : Type} {request : Request} {prom : π} {task : Task π}
    (core : Core) (stops : request.stops = true) (asked : request.task prom = some task) :
    (task.execute core).2.httpStatus = 200 := by
  cases request with
  | stop =>
    cases asked
    rfl
  | command cmd baud =>
    cases asked
    have halt : toUpperAscii cmd = "STOP" := by simpa [Request.stops] using stops
    have halts : Core.upper (toUpperAscii cmd) = "STOP" := (Core.upper_upper cmd).trans halt
    simp only [Task.execute, Task.ofSync, if_true, Core.handleSyncCommand_stop core halts]
    rfl
  | _ => contradiction

/-- The core answers a refused start with 409. -/
theorem Request.status_of_starts {π : Type} {request : Request} {prom : π} {task : Task π}
    (core : Core) (starts : request.starts = true) (asked : request.task prom = some task)
    (refused : (task.execute core).2.ok = false) : (task.execute core).2.httpStatus = 409 := by
  cases request with
  | start timeoutMs =>
    cases asked
    simp only [Task.execute, Task.ofStartJob, reduceCtorEq, if_false, if_true] at refused ⊢
    exact Core.startJob_refused refused
  | _ => contradiction

/-- A stop request that leaves `JobRunner::stop` submits. -/
theorem Request.afterStop_of_stops {request : Request} (stops : request.stops = true) :
    request.afterStop = .submitting := by
  cases request <;> first | rfl | contradiction

/-- The reply of a stop request is the core's response. -/
theorem Request.onResponse_of_stops {request : Request} (stops : request.stops = true)
    (r : Response) : ∃ reply, request.onResponse r = .answered reply ∧
      reply.status = r.httpStatus := by
  cases request with
  | start timeoutMs => contradiction
  | _ => exact ⟨_, rfl, rfl⟩

namespace World

variable {w next : World} {event : Event} {events : List Event}

/-- Every step keeps the stop requests on their route. -/
theorem stopRoute_step (answers : Answers w.disp w.handlers)
    (held : Table.All w.handlers fun _ hd => hd.StopRoute) (taken : w.step event = some next) :
    Table.All next.handlers fun _ hd => hd.StopRoute := by
  cases (step_move taken).2 with
  | arrive request =>
    refine held.spawn fun stops => ?_
    simp [Request.entry_of_stops stops]
  | receive here ready =>
    refine held.set fun stops => ?_
    obtain ⟨task, core, asked, rfl⟩ := answers.own here ready
    obtain ⟨reply, answered, status⟩ := Request.onResponse_of_stops stops (task.execute core).2
    simp only [answered]
    exact .inl (status.trans (Request.status_of_stops core stops asked))
  | idle here free | join here same found exited =>
    refine held.set fun stops => ?_
    simp [Request.afterStop_of_stops stops]
  | submit here asked | cancel here | wait here same => exact held.set fun _ => trivial
  | joinFail here free => exact held.set fun _ => .inr (.inl rfl)
  | giveUp here unset => exact held.set fun _ => .inr (.inr rfl)
  | terminate here same | work found agrees moved | write found moved written
  | writeFail found moved unwritten | clear found moved | finish found moved
  | dispatch moved => exact held
  | create rd here => exact held.set fun stops => (held _ _ here stops).elim
  | _ here => exact held.set fun stops => (held _ _ here stops).elim

/-- Every step keeps the malformed requests on their route. -/
theorem refusalRoute_step (held : Table.All w.handlers fun _ hd => hd.RefusalRoute)
    (taken : w.step event = some next) : Table.All next.handlers fun _ hd => hd.RefusalRoute := by
  cases (step_move taken).2 with
  | arrive request =>
    refine held.spawn fun malformed => ?_
    cases malformed
    trivial
  | reject here => exact held.set fun _ => rfl
  | terminate here same | work found agrees moved | write found moved written
  | writeFail found moved unwritten | clear found moved | finish found moved
  | dispatch moved => exact held
  | create rd here => exact held.set fun malformed => (held _ _ here malformed).elim
  | _ here => exact held.set fun malformed => (held _ _ here malformed).elim

/-! ## Workers -/

end World

/-- A worker's timeout never changes. -/
theorem Job.timeout_of_step {j k : Job} {obs : Obs} {effect : Effect}
    (moved : j.step obs = some (k, effect)) : k.timeoutMs = j.timeoutMs := by
  cases Job.step_move moved <;> rfl

namespace World

variable {w next : World} {event : Event} {events : List Event}

/-- Some worker was launched by this handler. -/
def Launched (threads : List Thread) (h : Nat) : Prop :=
  Table.Any threads fun _ thread => thread.owner = h

/-- A start request passes only these control points, and 202 means it has launched. -/
def StartRoute (threads : List Thread) (h : Nat) (hd : Handler) : Prop :=
  hd.request.starts = true →
    match hd.pc with
    | .replying _ => Launched threads h
    | .answered reply => reply.status = 202 → Launched threads h
    | .rejecting => False
    | .configuring _ => False
    | .looking _ => False
    | .fetching _ => False
    | _ => True

/-- A worker runs with the timeout of its owner's request. -/
structure Timed (threads : List Thread) (handlers : List Handler) : Prop where
  /-- Start requests are on their route. -/
  route : Table.All handlers fun h hd => StartRoute threads h hd
  /-- Workers have the timeout asked for. -/
  timeout : Table.All threads fun _ thread => ∃ hd, handlers[thread.owner]? = some hd ∧
    thread.job.timeoutMs = hd.request.timeout

/-- Launched workers stay in the table. -/
theorem Launched.set {threads : List Thread} {h k : Nat} {thread : Thread} {job : Job}
    (launched : Launched threads h) (found : threads[k]? = some thread) :
    Launched (threads.set k { thread with job }) h :=
  Table.Any.set launched found fun same => same

/-- A route does not depend on workers that are added or move. -/
theorem StartRoute.mono {threads more : List Thread} {h : Nat} {hd : Handler}
    (route : StartRoute threads h hd) (kept : Launched threads h → Launched more h) :
    StartRoute more h hd := by
  intro starts
  have here := route starts
  split at here
  · exact kept here
  · exact fun accepted => kept (here accepted)
  all_goals exact here

namespace Timed

variable {threads : List Thread} {handlers : List Handler} {h k : Nat} {request : Request}
  {pc pc' : RestPc} {thread : Thread}

/-- A handler's step. -/
theorem move (held : Timed threads handlers) (here : handlers[h]? = some ⟨request, pc⟩)
    (route : StartRoute threads h ⟨request, pc'⟩) :
    Timed threads (handlers.set h ⟨request, pc'⟩) where
  route := held.route.set route
  timeout := held.timeout.mono fun _ thread _ ⟨hd, found, same⟩ => by
    by_cases own : thread.owner = h
    · rw [own] at found ⊢
      obtain rfl := Option.some.inj (found.symm.trans here)
      exact ⟨_, Table.get_set_self here, same⟩
    · exact ⟨hd, (Table.get_set_other own).trans found, same⟩

/-- A worker's step. -/
theorem work {job : Job} (held : Timed threads handlers) (found : threads[k]? = some thread)
    (same : job.timeoutMs = thread.job.timeoutMs) :
    Timed (threads.set k { thread with job }) handlers where
  route := held.route.mono fun _ _ _ route => route.mono fun launched => launched.set found
  timeout := held.timeout.set (by
    obtain ⟨hd, there, timeout⟩ := held.timeout k thread found
    exact ⟨hd, there, same.trans timeout⟩)

/-- A launch. -/
theorem launch {id : String} (held : Timed threads handlers)
    (here : handlers[h]? = some ⟨request, .launching id⟩) :
    Timed (threads ++ [⟨h, { id, timeoutMs := request.timeout }⟩])
      (handlers.set h ⟨request, .replying id⟩) := by
  have launched : Launched (threads ++ [⟨h, { id, timeoutMs := request.timeout }⟩]) h :=
    ⟨threads.length, _, Table.get_spawn_last, rfl⟩
  have spawned : Timed (threads ++ [⟨h, { id, timeoutMs := request.timeout }⟩]) handlers :=
    ⟨held.route.mono fun _ _ _ route => route.mono Table.Any.spawn,
      held.timeout.spawn ⟨_, here, rfl⟩⟩
  exact spawned.move here fun _ => launched

end Timed

/-- Every step keeps workers and start requests together. -/
theorem Timed.step (held : Timed w.threads w.handlers) (answers : Answers w.disp w.handlers)
    (taken : w.step event = some next) : Timed next.threads next.handlers := by
  cases (step_move taken).2 with
  | arrive request =>
    refine ⟨held.route.spawn fun starts => ?_, held.timeout.mono fun _ _ _ kept => ?_⟩
    · cases request with
      | start timeoutMs => trivial
      | _ => contradiction
    · obtain ⟨hd, found, same⟩ := kept
      exact ⟨hd, Table.get_spawn_old found, same⟩
  | @receive h request r here ready =>
    refine held.move here fun starts => ?_
    obtain ⟨task, core, asked, rfl⟩ := answers.own here ready
    cases request with
    | start timeoutMs =>
      by_cases ok : (task.execute core).2.ok = true
      · simp [Request.onResponse, ok]
      · have refused := Request.status_of_starts core rfl asked (by simpa using ok)
        simp [Request.onResponse, ok, errorResponse, refused]
    | _ => contradiction
  | @idle h request here free | @join h _ request _ here same found exited =>
    refine held.move here fun starts => ?_
    cases request with
    | start timeoutMs => trivial
    | _ => contradiction
  | launch here free => exact held.launch here
  | reply here =>
    refine held.move here fun starts _ => ?_
    exact held.route _ _ here starts
  | work found agrees moved | write found moved written | writeFail found moved unwritten
  | clear found moved | finish found moved => exact held.work found (Job.timeout_of_step moved)
  | terminate here same | dispatch moved => exact held
  | create rd here | submit here asked | cancel here | wait here same | arm here =>
    exact held.move here fun _ => trivial
  | joinFail here free | giveUp here unset =>
    exact held.move here fun _ accepted => by simp [errorResponse] at accepted
  | reject here | configure here | look here present | miss here absent | fetch here found
  | fetchFail here absent => exact held.move here fun starts => (held.route _ _ here starts).elim

/-- What holds of every answer in every reachable state. -/
structure Replied (w : World) : Prop where
  /-- The bookkeeping of every run. -/
  sorted : w.Sorted
  /-- Responses come from the core. -/
  answers : Answers w.disp w.handlers
  /-- Stop requests are on their route. -/
  stopRoute : Table.All w.handlers fun _ hd => hd.StopRoute
  /-- Malformed requests are on their route. -/
  refusalRoute : Table.All w.handlers fun _ hd => hd.RefusalRoute
  /-- Workers have the timeouts asked for. -/
  timed : Timed w.threads w.handlers

/-- Every step keeps the answers right. -/
theorem Replied.step (held : w.Replied) (taken : w.step event = some next) : next.Replied where
  sorted := held.sorted.step taken
  answers := held.answers.step held.sorted.ticketed taken
  stopRoute := stopRoute_step held.answers held.stopRoute taken
  refusalRoute := refusalRoute_step held.refusalRoute taken
  timed := held.timed.step held.answers taken

/-- In every reachable state the answers are right. -/
theorem replied (reached : Transition.run World.step {} events = some w) : w.Replied := by
  refine Transition.run_stable Replied (fun held taken => held.step taken) ?_ reached
  exact ⟨sorted Transition.run_nil, by simp [Answers, Dispatcher.Given], by simp, by simp,
    ⟨by simp, by simp⟩⟩

end World

end QrEdgeGateway
