import QrEdgeGateway.Verif.Accounting
import QrEdgeGateway.Verif.Answers
import QrEdgeGateway.Verif.Permanence

/-!
# The start after a finished job

A worker stores its status first and queues its `FINISH_JOB` two steps later. A client that polls
in between is told that the job has ended while the core is still `RUNNING`. Under one client at a
time the fate of the next start is sealed when its task is queued: the core it will meet is the
one that the tasks queued before it lead to, and among these is the `FINISH_JOB` of the last job
exactly if its worker has exited.
-/

namespace QrEdgeGateway

/-- A stored status stays stored. -/
theorem Job.written_of_step {j k : Job} {obs : Obs} {effect : Effect}
    (moved : j.step obs = some (k, effect)) (written : j.pc.written = true) :
    k.pc.written = true := by
  obtain ⟨-, ⟨-, live, -⟩ | ⟨_, -, -, onward⟩ | ⟨-, -, onward⟩ | ⟨-, -, onward⟩⟩ :=
    step_cases moved
  · rw [live] at written
    contradiction
  all_goals simp [onward, JobPc.written]

/-- The workers of starts before this handler that run the job have stored their status. -/
def World.Stored (threads : List Thread) (p : Nat) (id : String) : Prop :=
  Table.All threads fun _ thread =>
    thread.owner < p → thread.job.id = id → thread.job.pc.written = true

/-- A `/result` handler stands at one of its control points, and a terminal status in its answer
was stored by the job's worker. -/
def Handler.Told (threads : List Thread) (p : Nat) (hd : Handler) : Prop :=
  ∀ id, hd.request = .result id →
    match hd.pc with
    | .looking asked => asked = id
    | .fetching asked => asked = id
    | .answered seen => ∀ status, seen.jobStatus = some status → status.Terminal →
        World.Stored threads p id
    | _ => False

namespace World

variable {w next : World} {event : Event} {events : List Event} {h p : Nat}

/-- A worker's step keeps what is stored. -/
theorem Stored.work {threads : List Thread} {k : Nat} {thread : Thread} {job : Job} {obs : Obs}
    {effect : Effect} {id : String} (stored : Stored threads p id)
    (found : threads[k]? = some thread) (moved : thread.job.step obs = some (job, effect)) :
    Stored (threads.set k { thread with job }) p id := by
  refine stored.set fun earlier same => ?_
  have kept : job.id = thread.job.id := (Job.step_cases moved).1
  exact Job.written_of_step moved (stored k thread found earlier (kept.symm.trans same))

/-- A handler that is told nothing new. -/
theorem told_mono {threads more : List Thread} {hd : Handler} (told : hd.Told threads p)
    (kept : ∀ id, Stored threads p id → Stored more p id) : hd.Told more p := by
  intro id asked
  have now := told id asked
  split at now
  · exact now
  · exact now
  · exact fun status polled terminal => kept id (now status polled terminal)
  · exact now

/-- A handler at a control point of no `/result` request is told nothing. -/
theorem told_other {threads more : List Thread} {request : Request} {pc pc' : RestPc}
    (told : Handler.Told threads p ⟨request, pc⟩) (elsewhere : pc.reads = false) :
    Handler.Told more p ⟨request, pc'⟩ := by
  intro id asked
  have now := told id asked
  cases pc <;> simp_all [RestPc.reads]

/-- What a client that sends one request at a time learns from its polls. -/
structure Polled (w : World) : Prop where
  /-- The request in flight is the newest. -/
  newest : Table.All w.handlers fun h hd => hd.done = false → h + 1 = w.handlers.length
  /-- Records to be written are pending. -/
  reserved : Reserved w.store w.threads w.handlers
  /-- Answers tell what is stored. -/
  told : Table.All w.handlers fun p hd => hd.Told w.threads p

/-- The request in flight is the newest after every step. -/
theorem newest_step
    (held : Table.All w.handlers fun h hd => hd.done = false → h + 1 = w.handlers.length)
    (serial : w.oneAtATime event = true) (taken : w.step event = some next) :
    Table.All next.handlers fun h hd => hd.done = false → h + 1 = next.handlers.length := by
  have moved : ∀ {h : Nat} {request : Request} {pc pc' : RestPc},
      w.handlers[h]? = some ⟨request, pc⟩ → (⟨request, pc⟩ : Handler).done = false →
      Table.All (w.handlers.set h ⟨request, pc'⟩) fun i hd =>
        hd.done = false → i + 1 = (w.handlers.set h ⟨request, pc'⟩).length := by
    intro h request pc pc' here flying
    rw [List.length_set]
    exact held.set fun _ => held h _ here flying
  cases (step_move taken).2 with
  | arrive request =>
    have settled : w.Settled := by simpa [oneAtATime] using serial
    intro i hd found flying
    obtain old | ⟨rfl, -⟩ := Table.get_spawn found
    · exact absurd ((settled i hd old).symm.trans flying) (by simp)
    · simp
  | terminate here same | work found agrees moved | write found moved written
  | writeFail found moved unwritten | clear found moved | finish found moved
  | dispatch moved => exact held
  | create rd here => exact moved here rfl
  | _ here => exact moved here rfl

/-- One client at a time never draws an identifier over a record that is still to be written. -/
theorem reserved_step (held : Reserved w.store w.threads w.handlers) (alone : w.Serial)
    (phase : w.Phase) (taken : w.step event = some next) :
    Reserved next.store next.threads next.handlers := by
  by_cases fresh : w.redraws event = false
  · exact held.step alone.sorted.joinable fresh taken
  cases (step_move taken).2 with
  | @create h request rd here =>
    have starts : request.starts = true := alone.sorted.typed h _ here
    obtain ⟨-, exited, -⟩ := phase.of_carried ⟨h, _, here, starts, .inl rfl⟩
    refine held.create here (fun i hd found starting => ?_) fun k thread found live => ?_
    · -- the only call in flight has not drawn yet
      have flying : hd.done = false := by
        cases pc : hd.pc <;> simp [Handler.done, RestPc.starting, pc] at starting ⊢
      obtain rfl := alone.solo i h hd _ found here flying rfl
      obtain rfl := Option.some.inj (found.symm.trans here)
      contradiction
    · exact absurd (exited k thread found) live.unfinished
  | _ => simp [redraws] at fresh

/-- Every step keeps what the polls have told. -/
theorem told_step (held : w.Polled) (taken : w.step event = some next) :
    Table.All next.handlers fun p hd => hd.Told next.threads p := by
  cases (step_move taken).2 with
  | arrive request =>
    refine held.told.spawn fun id asked => ?_
    obtain rfl : request = .result id := asked
    rfl
  | terminate here same | dispatch moved => exact held.told
  | work found agrees moved | write found moved written | writeFail found moved unwritten
  | clear found moved | finish found moved =>
    exact held.told.mono fun _ _ _ told => told_mono told fun _ stored => stored.work found moved
  | look here present => exact held.told.set fun id asked => held.told _ _ here id asked
  | miss here absent =>
    exact held.told.set fun id asked status polled => by simp [errorResponse] at polled
  | fetchFail here absent =>
    exact held.told.set fun id asked status polled => by simp [errorResponse] at polled
  | @fetch p request id res here found =>
    refine held.told.set fun asked same status polled terminal => ?_
    obtain rfl := held.told _ _ here asked same
    obtain rfl := Option.some.inj polled
    -- a worker that has not stored its status has a pending record
    intro k thread there _ own
    by_contra unwritten
    have pending := held.reserved.live k thread there (by simpa [Job.Live] using unwritten)
    rw [own, JobStore.Pending, found] at pending
    exact terminal (Option.some.inj pending)
  | @launch h request id here free =>
    have last : h + 1 = w.handlers.length := held.newest h _ here rfl
    refine Table.All.set (held.told.mono fun p hd found told => ?_)
      (told_other (held.told _ _ here) rfl)
    refine told_mono told fun asked stored => stored.spawn fun earlier => ?_
    -- a poll already answered came before this start
    have inside := Table.lt_length found
    simp only at earlier
    omega
  | create rd here => exact held.told.set (told_other (held.told _ _ here) rfl)
  | _ here => exact held.told.set (told_other (held.told _ _ here) rfl)

/-- Every step of one client at a time keeps all of this. -/
theorem Polled.step (held : w.Polled) (alone : w.Serial) (phase : w.Phase)
    (serial : w.oneAtATime event = true) (taken : w.step event = some next) : next.Polled :=
  ⟨newest_step held.newest serial taken, reserved_step held.reserved alone phase taken,
    told_step held taken⟩

/-- A run that serves one request at a time. -/
theorem polled_run (reached : Transition.run World.step {} events = some w)
    (serial : Transition.Along World.step (fun w event => w.oneAtATime event = true) {} events) :
    w.Serial ∧ w.Phase ∧ w.Polled := by
  refine Transition.run_invariant (fun w : World => w.Serial ∧ w.Phase ∧ w.Polled) ?_ ?_ reached
    serial
  · intro state event after held one taken
    obtain ⟨alone, phase, polled⟩ := held
    exact ⟨alone.step one taken, phase.step alone one taken, polled.step alone phase one taken⟩
  · obtain ⟨alone, phase⟩ : ({} : World).Serial ∧ ({} : World).Phase :=
      phase_run Transition.run_nil trivial
    refine ⟨alone, phase, by simp, ⟨by simp, by simp, ?_, by simp⟩, by simp⟩
    exact fun id i j a b found => by simp at found

/-! ## The fate of a start -/

/-- What the core that a start meets decides, by the control point of its handler. -/
def Fate (core : Core) : RestPc → Prop
  | .awaiting => True
  | .answered reply => reply.message = "ERR:ALREADY_RUNNING" ↔ core.st = .running
  | .rejecting => False
  | .configuring _ => False
  | .submitting => False
  | .looking _ => False
  | .fetching _ => False
  -- accepted
  | _ => core.st ≠ .running

/-- The response of a job start decides its fate. -/
theorem fate_onResponse (core : Core) (timeoutMs : Int) :
    Fate core ((Request.start timeoutMs).onResponse (core.startJob timeoutMs).2) := by
  unfold Core.startJob
  cases held : core.st <;> simp [Request.onResponse, Fate, errorResponse, held]

/-- The start's task is queued and meets this core. -/
structure Sealed (h : Nat) (timeoutMs : Int) (core : Core) (w : World) : Prop where
  /-- The bookkeeping of every run. -/
  sorted : w.Sorted
  /-- The task meets the core. -/
  meets : w.disp.AnsweredFrom core (.ofStartJob timeoutMs (.handler h))
  /-- It has been pushed. -/
  pushed : Submitter.handler h ∈ w.disp.tags
  /-- The handler goes where the core sends it. -/
  fate : ∃ pc, w.handlers[h]? = some ⟨.start timeoutMs, pc⟩ ∧ Fate core pc

/-- No step pushes a promise a second time, so the task meets the core it was to meet. -/
theorem meets_step {core : Core} {task : Task Submitter} (sorted : w.Sorted)
    (meets : w.disp.AnsweredFrom core task) (pushed : task.prom ∈ w.disp.tags)
    (taken : w.step event = some next) :
    next.disp.AnsweredFrom core task ∧ task.prom ∈ next.disp.tags := by
  cases (step_move taken).2 with
  | @submit i request other here asked =>
    refine ⟨meets.push fun same => ?_, by simp [moveTo, pushed]⟩
    rw [← same, Request.task_prom asked] at pushed
    exact sorted.ticketed.unused_of_fresh here rfl pushed
  | @finish k thread job obs found moved =>
    refine ⟨meets.push fun same => ?_, by simp [pushed]⟩
    rw [← same] at pushed
    exact sorted.ticketed.unused_of_unfinished found (Job.unfinished_of_step moved) pushed
  | dispatch moved =>
    exact ⟨meets.loopStep sorted.ticketed.distinct moved,
      (Dispatcher.tags_loopStep moved).symm ▸ pushed⟩
  | _ => exact ⟨meets, pushed⟩

/-- Every step of one client at a time keeps the fate of the start. -/
theorem fate_step {timeoutMs : Int} {core : Core} (held : w.Sealed h timeoutMs core)
    (serial : w.oneAtATime event = true) (taken : w.step event = some next) :
    ∃ pc, next.handlers[h]? = some ⟨.start timeoutMs, pc⟩ ∧ Fate core pc := by
  obtain ⟨pc, there, fate⟩ := held.fate
  -- a handler that moves is this one or leaves it alone
  have moved : ∀ {i : Nat} {request : Request} {from' to' : RestPc},
      w.handlers[i]? = some ⟨request, from'⟩ →
      (i = h → request = .start timeoutMs → Fate core from' → Fate core to') →
      ∃ pc, (w.handlers.set i ⟨request, to'⟩)[h]? = some ⟨.start timeoutMs, pc⟩ ∧
        Fate core pc := by
    intro i request from' to' here onward
    by_cases own : i = h
    · subst own
      obtain ⟨rfl, rfl⟩ := Handler.mk.inj (Option.some.inj (here.symm.trans there))
      exact ⟨_, Table.get_set_self here, onward rfl rfl fate⟩
    · exact ⟨pc, (Table.get_set_other (Ne.symm own)).trans there, fate⟩
  cases (step_move taken).2 with
  | arrive request => exact ⟨pc, Table.get_spawn_old there, fate⟩
  | terminate here same | work found agrees moved | write found moved written
  | writeFail found moved unwritten | clear found moved | finish found moved
  | dispatch moved => exact ⟨pc, there, fate⟩
  | receive here ready =>
    refine moved here fun own start _ => ?_
    subst own start
    obtain ⟨rfl, -⟩ := held.meets.response (.inr (Dispatcher.mem_of_future ready))
    exact fate_onResponse core timeoutMs
  | idle here free | join here same found exited =>
    refine moved here fun _ start accepted => ?_
    subst start
    exact accepted
  | create rd here => exact moved here fun _ _ accepted => accepted
  | cancel here | wait here same | arm here | launch here free =>
    exact moved here fun _ _ accepted => accepted
  | joinFail here free | reply here =>
    refine moved here fun _ _ accepted => ?_
    have still : core.st ≠ .running := accepted
    simp [Fate, errorResponse, still]
  | giveUp here unset => simp [oneAtATime] at serial
  | _ here => exact moved here fun _ _ nowhere => nowhere.elim

/-- Every step of one client at a time keeps the start sealed. -/
theorem Sealed.step {timeoutMs : Int} {core : Core} (held : w.Sealed h timeoutMs core)
    (serial : w.oneAtATime event = true) (taken : w.step event = some next) :
    next.Sealed h timeoutMs core := by
  obtain ⟨meets, pushed⟩ := meets_step held.sorted held.meets held.pushed taken
  exact ⟨held.sorted.step taken, meets, pushed, fate_step held serial taken⟩

/-- The submission seals the fate of a start. -/
theorem sealed_of_submit {timeoutMs : Int} (sorted : w.Sorted)
    (here : w.handlers[h]? = some ⟨.start timeoutMs, .submitting⟩)
    (taken : w.step (.handler h) = some next) :
    next.Sealed h timeoutMs (Mealy.final Task.execute w.disp.core w.disp.unexecuted) := by
  have bookkept := sorted.step taken
  cases (step_move taken).2 with
  | submit there asked =>
    obtain ⟨rfl, -⟩ := Handler.mk.inj (Option.some.inj (there.symm.trans here))
    cases asked
    have fresh : Submitter.handler h ∉ w.disp.tags :=
      sorted.ticketed.unused_of_fresh here rfl
    exact ⟨bookkept, Dispatcher.answeredFrom_push fresh, by simp [moveTo, Task.ofStartJob], _,
      Table.get_set_self here, trivial⟩
  | _ there =>
    rw [here] at there
    cases there

/-- While a start is about to be queued, the tasks queued are workers' `FINISH_JOB`s. -/
theorem Serial.only_finish (alone : w.Serial) {request : Request}
    (here : w.handlers[h]? = some ⟨request, .submitting⟩) :
    ∀ task ∈ w.disp.unexecuted, ∃ k, task = .ofFinishJob (.job k) := by
  intro task pending
  have unanswered := w.disp.unexecuted_subset pending
  obtain ⟨i, hd, found, asked⟩ | finish := alone.sorted.ticketed.asked task unanswered
  · obtain waits | unasked := alone.waits i hd found
    · obtain rfl := alone.solo i h hd _ found here (by simp [Handler.done, waits]) rfl
      obtain rfl := Option.some.inj (found.symm.trans here)
      contradiction
    · exact absurd (Request.task_prom asked) (unasked task unanswered)
  · exact finish

/-- The core that a start meets is `RUNNING` exactly if a worker has not queued its `FINISH_JOB`
when the start is queued. -/
theorem Phase.meets_running (phase : w.Phase) (alone : w.Serial) {request : Request}
    (here : w.handlers[h]? = some ⟨request, .submitting⟩) :
    (Mealy.final Task.execute w.disp.core w.disp.unexecuted).st = .running ↔
      Table.Any w.threads fun _ thread => thread.job.Unfinished := by
  have only := alone.only_finish here
  -- without a `FINISH_JOB` nothing is queued
  have empty : ∀ {tasks : List (Task Submitter)}, (∀ task ∈ tasks, task ∈ w.disp.unexecuted) →
      NoFinish tasks → tasks = [] := by
    intro tasks queued noFinish
    refine List.eq_nil_iff_forall_not_mem.mpr fun task member => ?_
    obtain ⟨k, rfl⟩ := only task (queued task member)
    exact noFinish _ member rfl
  have idle : Table.All w.threads (fun _ thread => thread.job.pc = .exited) →
      ¬ Table.Any w.threads fun _ thread => thread.job.Unfinished :=
    fun exited ⟨k, thread, found, busy⟩ => busy (exited k thread found)
  cases phase with
  | idle still calm noFinish =>
    rw [empty (fun _ member => member) noFinish]
    exact iff_of_false still (idle calm.exited)
  | carried running carried exited noFinish =>
    obtain ⟨i, hd, found, carries⟩ := carried
    obtain rfl := alone.solo i h hd _ found here carries.not_done rfl
    obtain rfl := Option.some.inj (found.symm.trans here)
    simp [Handler.Carries, RestPc.within] at carries
  | working running free busy unhalted noFinish =>
    rw [empty (fun _ member => member) noFinish]
    exact iff_of_true running busy
  | finishing running calm before after finish split kind first unhalted last =>
    have front : before = [] := empty (fun task member => by simp [split, member]) first
    have back : after = [] := empty (fun task member => by simp [split, member]) last
    obtain ⟨k, rfl⟩ := only finish (by simp [split])
    rw [split, front, back]
    refine iff_of_false ?_ (idle calm.exited)
    have ended : (w.disp.core.finishJob.1).st = .init := by
      simp [Core.finishJob_state, running]
    simp [Mealy.final, Task.execute, Task.ofFinishJob, ended]

/-- One client at a time is told by a poll that the last job it started has ended, and sends
another start. The start is refused with `ERR:ALREADY_RUNNING` exactly if its task is queued
while the worker stands between the write of its status and its `FINISH_JOB`. -/
theorem next_start_refused_iff {before after : List Event} {w final : World} {h p k : Nat}
    {timeoutMs : Int} {thread : Thread} {seen reply : Reply} {status : JobStatus}
    (reached : Transition.run World.step {} before = some w)
    (went : Transition.run World.step w (.handler h :: after) = some final)
    (serial : Transition.Along World.step (fun w event => w.oneAtATime event = true) {}
      (before ++ .handler h :: after))
    (last : w.threads[k]? = some thread) (newest : k + 1 = w.threads.length)
    (polled : w.handlers[p]? = some ⟨.result thread.job.id, .answered seen⟩)
    (afterwards : thread.owner < p)
    (shown : seen.jobStatus = some status) (terminal : status.Terminal)
    (sent : w.handlers[h]? = some ⟨.start timeoutMs, .submitting⟩)
    (answered : final.handlers[h]? = some ⟨.start timeoutMs, .answered reply⟩) :
    reply.message = "ERR:ALREADY_RUNNING" ↔
      thread.job.pc = .clearing ∨ thread.job.pc = .finishing := by
  obtain ⟨along, onward⟩ := (Transition.along_append reached).mp serial
  obtain ⟨alone, phase, learnt⟩ := polled_run reached along
  obtain ⟨queued, taken, rest⟩ := Transition.run_cons.mp went
  have start := sealed_of_submit alone.sorted sent taken
  have ended := Transition.run_invariant
    (Sealed h timeoutMs (Mealy.final Task.execute w.disp.core w.disp.unexecuted))
    (fun held one moved => held.step one moved) start rest (onward.2 queued taken)
  obtain ⟨pc, there, fate⟩ := ended.fate
  obtain ⟨-, rfl⟩ := Handler.mk.inj (Option.some.inj (there.symm.trans answered))
  have written : thread.job.pc.written = true :=
    learnt.told p _ polled _ rfl status shown terminal k thread last afterwards rfl
  rw [show reply.message = "ERR:ALREADY_RUNNING" ↔ _ from fate, phase.meets_running alone sent]
  constructor
  · rintro ⟨i, other, found, busy⟩
    -- the worker that runs is the newest
    have mine := alone.sorted.joinable.newest i (alone.sorted.joinable.sole i other found busy)
    obtain rfl : i = k := by omega
    obtain rfl := Option.some.inj (found.symm.trans last)
    cases pc : other.job.pc <;> simp [JobPc.written, pc, Job.Unfinished] at written busy ⊢
  · intro between
    refine ⟨k, thread, last, fun exited => ?_⟩
    simp [exited] at between

/-- One client starts a job that times out, and polls as soon as the status is stored. -/
def polledRun : List Event :=
  initCall 0 ++ (startCall 1 1 fun _ => 0) ++
    [.job 0 (.clock 0), .job 0 (.running true), .job 0 (.clock 1000000), .job 0 .tau,
      .request (.result "00000000"), .handler 2, .handler 2]

/-- The worker exits before the next start is queued. -/
def patientRun : List Event := polledRun ++ [.job 0 .tau, .job 0 .tau, .request (.start 5000)]

/-- The start behind the `FINISH_JOB` of the last job. -/
def startBehind : List Event :=
  serve ++ serve ++ [.handler 3, .handler 3, .handler 3, .handler 3, .draw 3 fun _ => 1,
    .handler 3, .handler 3, .handler 3]

/-- The patient client's start is not refused. -/
theorem patientRun_accepted : ∃ w final reply,
    Transition.run World.step {} patientRun = some w ∧
    Transition.run World.step w (.handler 3 :: startBehind) = some final ∧
    final.handlers[3]? = some ⟨.start 5000, .answered reply⟩ ∧ reply.status = 202 ∧
    reply.message ≠ "ERR:ALREADY_RUNNING" := by
  obtain ⟨w, reached, final, went, thread, last, newest, exited, seen, polled, afterwards, shown,
      sent, reply, answered, accepted⟩ : ∃ w,
      Transition.run World.step {} patientRun = some w ∧ ∃ final,
      Transition.run World.step w (.handler 3 :: startBehind) = some final ∧
      ∃ thread : Thread, w.threads[0]? = some thread ∧ 0 + 1 = w.threads.length ∧
      thread.job.pc = .exited ∧ ∃ seen,
      w.handlers[2]? = some ⟨.result thread.job.id, .answered seen⟩ ∧ thread.owner < 2 ∧
      seen.jobStatus = some .timeout ∧
      w.handlers[3]? = some ⟨.start 5000, .submitting⟩ ∧ ∃ reply,
      final.handlers[3]? = some ⟨.start 5000, .answered reply⟩ ∧ reply.status = 202 :=
    ⟨_, rfl, _, rfl, _, rfl, rfl, rfl, _, rfl, by decide, rfl, rfl, _, rfl, rfl⟩
  have refused := next_start_refused_iff reached went (by decide) last newest polled afterwards
    shown (by decide) sent answered
  refine ⟨w, final, reply, reached, went, answered, accepted, fun message => ?_⟩
  have between := refused.mp message
  simp [exited] at between

/-- The prompt client is told that the job has timed out, and its next start is refused. -/
theorem polledRun_refused : ∃ w final seen reply,
    Transition.run World.step {} (polledRun ++ [.request (.start 5000)]) = some w ∧
    w.handlers[2]? = some ⟨.result "00000000", .answered seen⟩ ∧
    seen.jobStatus = some .timeout ∧
    Transition.run World.step w (.handler 3 :: serve ++ [.handler 3]) = some final ∧
    Transition.Along World.step (fun w event => w.oneAtATime event = true) {}
      ((polledRun ++ [.request (.start 5000)]) ++ (.handler 3 :: serve ++ [.handler 3])) ∧
    final.handlers[3]? = some ⟨.start 5000, .answered reply⟩ ∧
    reply.message = "ERR:ALREADY_RUNNING" :=
  ⟨_, _, _, _, rfl, rfl, rfl, rfl, by decide, rfl, rfl⟩

end World

end QrEdgeGateway
