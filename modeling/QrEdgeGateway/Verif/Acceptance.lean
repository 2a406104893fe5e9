import QrEdgeGateway.Verif.Bookkeeping

/-!
# Accepted starts

`Core` accepts a job in the dispatcher's worker; the handler that asked starts the job's thread
later, in its own thread. In between the acceptance is carried by the dispatcher (the core has
answered, the promise is set) and then by the handler. The lemmas here say what each step of
the service does to that carrier: only the execution of a `START_JOB` task in `INIT` makes one,
and only the launch, a given-up wait or a failed join ends one.
-/

namespace QrEdgeGateway

namespace Dispatcher

variable {π : Type}

/-- This is the core's response to the task of this promise. -/
def Given (d : Dispatcher π) (prom : π) (r : Response) : Prop :=
  (∃ task, d.loop = .executed task r ∧ task.prom = prom) ∨ (prom, r) ∈ d.promises

/-- What a step of the worker does to the responses: only an execution adds one. -/
theorem given_loopStep {d next : Dispatcher π} {act : LoopAct} (moved : d.loopStep act = some next)
    (prom : π) (r : Response) :
    next.Given prom r ↔ d.Given prom r ∨
      ∃ task, act = .execute ∧ d.loop = .taken task ∧ task.prom = prom ∧
        r = (task.execute d.core).2 := by
  obtain ⟨task, rest, rfl, waiting, queued, rfl⟩ | ⟨rfl, waiting, queued, -, rfl⟩ |
    ⟨task, rfl, taken, rfl⟩ | ⟨task, response, rfl, executed, rfl⟩ := loopStep_cases moved
  · simp [Given, waiting]
  · simp [Given, waiting]
  · simp only [Given, taken, LoopPc.executed.injEq]
    constructor
    · rintro (⟨_, ⟨rfl, rfl⟩, same⟩ | set)
      · exact .inr ⟨_, trivial, rfl, same, rfl⟩
      · exact .inl (.inr set)
    · rintro ((⟨_, impossible, -⟩ | set) | ⟨_, -, same, prom, rfl⟩)
      · contradiction
      · exact .inr set
      · cases same
        exact .inl ⟨_, ⟨rfl, rfl⟩, prom⟩
  · simp only [Given, executed, LoopPc.executed.injEq, List.mem_append, List.mem_singleton]
    constructor
    · rintro (⟨_, impossible, -⟩ | set | equal)
      · contradiction
      · exact .inl (.inr set)
      · obtain ⟨rfl, rfl⟩ := Prod.mk.inj equal
        exact .inl (.inl ⟨_, ⟨rfl, rfl⟩, rfl⟩)
    · rintro ((⟨_, ⟨rfl, rfl⟩, rfl⟩ | set) | ⟨_, impossible, -⟩)
      · exact .inr (.inr rfl)
      · exact .inr (.inl set)
      · contradiction

variable [DecidableEq π]

/-- The task of this promise has been executed with success. -/
def Granted (d : Dispatcher π) (prom : π) : Prop :=
  (∃ task r, d.loop = .executed task r ∧ task.prom = prom ∧ r.ok = true) ∨
    ∃ r, d.future prom = some r ∧ r.ok = true

instance (d : Dispatcher π) (prom : π) : Decidable (d.Granted prom) :=
  decidable_of_iff
    ((match d.loop with
      | .executed task r => decide (task.prom = prom) && r.ok
      | _ => false) = true ∨ (d.future prom).any Response.ok = true) (by
    unfold Granted
    cases d.loop <;> simp [Option.any_eq_true])

/-- A success belongs to a task that was pushed. -/
theorem Granted.mem_tags {d : Dispatcher π} {prom : π} (granted : d.Granted prom) :
    prom ∈ d.tags := by
  obtain ⟨task, r, held, rfl, -⟩ | ⟨r, set, -⟩ := granted
  · exact prom_mem_tags (by simp [unanswered, held, LoopPc.held])
  · exact List.mem_append_left _ (List.mem_map_of_mem (f := Prod.fst) (mem_of_future set))

/-- A success is a response that says so. -/
theorem granted_iff {d : Dispatcher π} (distinct : d.tags.Nodup) (prom : π) :
    d.Granted prom ↔ ∃ r, d.Given prom r ∧ r.ok = true := by
  constructor
  · rintro (⟨task, r, held, same, ok⟩ | ⟨r, set, ok⟩)
    · exact ⟨r, .inl ⟨task, held, same⟩, ok⟩
    · exact ⟨r, .inr (mem_of_future set), ok⟩
  · rintro ⟨r, ⟨task, held, same⟩ | set, ok⟩
    · exact .inl ⟨task, r, held, same, ok⟩
    · exact .inr ⟨r, future_of_mem distinct set, ok⟩

/-- What a step of the worker does to the successes: only an execution adds one. -/
theorem granted_loopStep {d next : Dispatcher π} {act : LoopAct} (distinct : d.tags.Nodup)
    (moved : d.loopStep act = some next) (prom : π) :
    next.Granted prom ↔ d.Granted prom ∨
      ∃ task, act = .execute ∧ d.loop = .taken task ∧ task.prom = prom ∧
        (task.execute d.core).2.ok = true := by
  have kept : next.tags.Nodup := (tags_loopStep moved).symm ▸ distinct
  simp only [granted_iff kept, granted_iff distinct, given_loopStep moved]
  constructor
  · rintro ⟨r, given | ⟨task, act, taken, same, rfl⟩, ok⟩
    · exact .inl ⟨r, given, ok⟩
    · exact .inr ⟨task, act, taken, same, ok⟩
  · rintro (⟨r, given, ok⟩ | ⟨task, act, taken, same, ok⟩)
    · exact ⟨r, .inl given, ok⟩
    · exact ⟨_, .inr ⟨task, act, taken, same, rfl⟩, ok⟩

end Dispatcher

/-- Only a start request asks for a `START_JOB` task. -/
theorem Request.task_startJob {π : Type} {request : Request} {prom : π} {task : Task π}
    (asked : request.task prom = some task) :
    task.kind = .startJob ↔ request.starts = true := by
  cases request with
  | start timeoutMs =>
    cases asked
    simp [Task.ofStartJob, Request.starts]
  | stop =>
    cases asked
    simp [Task.ofStop, Request.starts]
  | command cmd baud =>
    cases asked
    simp [Task.ofSync, Request.starts]
  | result id => contradiction
  | malformed => contradiction

/-- A `START_JOB` task succeeds exactly in `INIT`. -/
theorem Task.execute_startJob_ok {π : Type} {task : Task π} (core : Core)
    (start : task.kind = .startJob) :
    (task.execute core).2.ok = true ↔ core.st = .init := by
  simp only [Task.execute, start, reduceCtorEq, if_false, if_true]
  exact Core.startJob_ok core task.timeoutMs

/-- The handler is inside `JobRunner::start` and has not launched the thread. -/
def RestPc.within : RestPc → Bool
  | .cancelling => true
  | .checking => true
  | .joining => true
  | .creating => true
  | .arming _ => true
  | .launching _ => true
  | _ => false

/-- A start handler carries an acceptance: its task has succeeded and its thread is not
launched. -/
def Handler.Carries (disp : Dispatcher Submitter) (h : Nat) (hd : Handler) : Prop :=
  hd.request.starts = true ∧
    (hd.pc.within = true ∨ hd.pc = .awaiting ∧ disp.Granted (.handler h))

instance (disp : Dispatcher Submitter) (h : Nat) (hd : Handler) :
    Decidable (hd.Carries disp h) :=
  inferInstanceAs (Decidable (hd.request.starts = true ∧
    (hd.pc.within = true ∨ hd.pc = .awaiting ∧ disp.Granted (.handler h))))

namespace World

variable {w next : World} {event : Event}

/-- This step is the acceptance of a `START_JOB` task by the core. -/
def accepts (w : World) : Event → Bool
  | .dispatch .execute =>
    match w.disp.loop with
    | .taken task => task.kind = .startJob ∧ w.disp.core.st = .init
    | _ => false
  | _ => false

/-- Some accepted start has not launched its thread. -/
def Carried (disp : Dispatcher Submitter) (handlers : List Handler) : Prop :=
  Table.Any handlers (Handler.Carries disp)

instance (disp : Dispatcher Submitter) (handlers : List Handler) :
    Decidable (Carried disp handlers) :=
  inferInstanceAs (Decidable (Table.Any handlers (Handler.Carries disp)))

/-- An acceptance step, read back. -/
theorem accepts_iff : w.accepts event = true ↔ event = .dispatch .execute ∧
    ∃ task, w.disp.loop = .taken task ∧ task.kind = .startJob ∧ w.disp.core.st = .init := by
  constructor
  · intro accepting
    unfold accepts at accepting
    split at accepting
    · split at accepting
      · rename_i task held
        exact ⟨rfl, task, held, by simpa using accepting⟩
      · contradiction
    · contradiction
  · rintro ⟨rfl, task, held, start, init⟩
    simp [accepts, held, start, init]

/-- A task of a handler's promise is that handler's. -/
theorem Ticketed.own {disp : Dispatcher Submitter} {threads : List Thread}
    {handlers : List Handler} {task : Task Submitter} {h : Nat} {hd : Handler}
    (held : Ticketed disp threads handlers) (pending : task ∈ disp.unanswered)
    (prom : task.prom = .handler h) (found : handlers[h]? = some hd) :
    hd.request.task (.handler h) = some task := by
  obtain ⟨i, other, there, asked⟩ | ⟨k, rfl⟩ := held.asked task pending
  · have same := (Request.task_prom asked).symm.trans prom
    cases same
    obtain rfl := Option.some.inj (found.symm.trans there)
    exact asked
  · contradiction

/-- What a step of the dispatcher's worker does to the handlers that carry an acceptance. -/
theorem carries_dispatch {act : LoopAct} {disp : Dispatcher Submitter}
    (ticketed : Ticketed w.disp w.threads w.handlers) (moved : w.disp.loopStep act = some disp)
    {h : Nat} {hd : Handler} (found : w.handlers[h]? = some hd) :
    hd.Carries disp h ↔ hd.Carries w.disp h ∨
      hd.request.starts = true ∧ hd.pc = .awaiting ∧ w.accepts (.dispatch act) = true ∧
        ∃ task, w.disp.loop = .taken task ∧ task.prom = .handler h := by
  simp only [Handler.Carries, Dispatcher.granted_loopStep ticketed.distinct moved]
  constructor
  · rintro ⟨starts, inside | ⟨waits, granted | ⟨task, rfl, taken, prom, ok⟩⟩⟩
    · exact .inl ⟨starts, .inl inside⟩
    · exact .inl ⟨starts, .inr ⟨waits, granted⟩⟩
    · have pending : task ∈ w.disp.unanswered := by simp [Dispatcher.unanswered, taken, LoopPc.held]
      have start : task.kind = .startJob :=
        (Request.task_startJob (ticketed.own pending prom found)).mpr starts
      have init := (Task.execute_startJob_ok w.disp.core start).mp ok
      exact .inr ⟨starts, waits, accepts_iff.mpr ⟨rfl, task, taken, start, init⟩,
        task, taken, prom⟩
  · rintro (⟨starts, inside | ⟨waits, granted⟩⟩ | ⟨starts, waits, accepting, task, taken, prom⟩)
    · exact ⟨starts, .inl inside⟩
    · exact ⟨starts, .inr ⟨waits, .inl granted⟩⟩
    · obtain ⟨same, other, there, start, init⟩ := accepts_iff.mp accepting
      obtain rfl := LoopPc.taken.inj (taken.symm.trans there)
      cases same
      refine ⟨starts, .inr ⟨waits, .inr ⟨task, rfl, taken, prom, ?_⟩⟩⟩
      exact (Task.execute_startJob_ok w.disp.core start).mpr init

/-- A request that has just arrived carries nothing. -/
theorem not_carries_entry {disp : Dispatcher Submitter} {h : Nat} (request : Request) :
    ¬ (⟨request, request.entry⟩ : Handler).Carries disp h := by
  rintro ⟨starts, rest⟩
  cases request with
  | start timeoutMs => simp [Request.entry, RestPc.within] at rest
  | _ => contradiction

/-- A response makes a handler carry exactly what its future holds. -/
theorem carries_onResponse {disp : Dispatcher Submitter} {h : Nat} {request : Request}
    {r : Response} : (⟨request, request.onResponse r⟩ : Handler).Carries disp h ↔
      request.starts = true ∧ r.ok = true := by
  cases request with
  | start timeoutMs =>
    by_cases ok : r.ok = true
    · simp [Handler.Carries, Request.onResponse, ok, RestPc.within, Request.starts]
    · simp [Handler.Carries, Request.onResponse, ok, RestPc.within, Request.starts]
  | _ => simp [Handler.Carries, Request.starts]

/-- A handler that leaves `JobRunner::stop` still carries what it carried. -/
theorem carries_afterStop {disp : Dispatcher Submitter} {h : Nat} {request : Request} :
    (⟨request, request.afterStop⟩ : Handler).Carries disp h ↔ request.starts = true := by
  cases request <;> simp [Handler.Carries, Request.afterStop, RestPc.within, Request.starts]

/-- An accepted start not yet launched was one before, unless this step accepted it. -/
theorem carried_of_step (ticketed : Ticketed w.disp w.threads w.handlers)
    (taken : w.step event = some next) (carried : Carried next.disp next.handlers) :
    Carried w.disp w.handlers ∨ w.accepts event = true := by
  cases (step_move taken).2 with
  | arrive request =>
    obtain old | fresh := Table.Any.of_spawn carried
    · exact .inl old
    · exact absurd fresh (not_carries_entry request)
  | dispatch moved =>
    obtain ⟨h, hd, found, carries⟩ := carried
    obtain old | ⟨-, -, accepting, -⟩ := (carries_dispatch ticketed moved found).mp carries
    · exact .inl ⟨h, hd, found, old⟩
    · exact .inr accepting
  | submit here asked =>
    refine .inl (Table.Any.of_set carried here ?_)
    rintro ⟨-, inside | ⟨-, granted⟩⟩
    · contradiction
    · exact absurd granted.mem_tags (ticketed.unused_of_fresh here rfl)
  | receive here ready =>
    refine .inl (Table.Any.of_set carried here fun carries => ?_)
    obtain ⟨starts, ok⟩ := carries_onResponse.mp carries
    exact ⟨starts, .inr ⟨rfl, .inr ⟨_, ready, ok⟩⟩⟩
  | idle here free | join here same found exited =>
    exact .inl (Table.Any.of_set carried here fun carries => ⟨carries.1, .inl rfl⟩)
  | terminate here same | work found agrees moved | write found moved written
  | writeFail found moved unwritten | clear found moved | finish found moved => exact .inl carried
  | create rd here =>
    exact .inl (Table.Any.of_set carried here fun carries => ⟨carries.1, .inl rfl⟩)
  | cancel here | wait here same | arm here =>
    exact .inl (Table.Any.of_set carried here fun carries => ⟨carries.1, .inl rfl⟩)
  | _ here =>
    refine .inl (Table.Any.of_set carried here fun carries => ?_)
    simp [Handler.Carries, RestPc.within] at carries

end World

end QrEdgeGateway
