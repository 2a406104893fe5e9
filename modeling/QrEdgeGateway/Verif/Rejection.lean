import QrEdgeGateway.Requests
import QrEdgeGateway.Verif.Answers

/-!
# What a refused request leaves behind

A request is served while no other handler and no worker moves; the dispatcher's worker goes on
with the tasks that were queued before. What the service is after a refusal is compared with
what those earlier tasks make of the state before it. The one access that comes before the core
has been asked is the setting of a baudrate, so a refused `INIT` can leave its baudrate behind.
-/

namespace QrEdgeGateway

/-- The step belongs to the service of this handler's request. -/
def Event.serves (h : Nat) : Event → Bool
  | .handler i => i = h
  | .draw i _ => i = h
  | .giveUp i => i = h
  | .dispatch _ => true
  | _ => false

namespace Request

/-- The baudrate an accepted body carries. -/
def baudrate : Request → Option Int
  | .command _ baud => baud
  | _ => none

/-- `baudrate_` after the handler's own access to it. -/
def configured (request : Request) (old : Int) : Int :=
  match request.entry with
  | .configuring baud => if baud ≤ 0 then old else baud
  | _ => old

/-- A task that the core refuses leaves it as it was. -/
theorem execute_refused {π : Type} {request : Request} {prom : π} {task : Task π} {core : Core}
    (asked : request.task prom = some task)
    (refused : 400 ≤ (task.execute core).2.httpStatus) : (task.execute core).1 = core := by
  cases request with
  | start timeoutMs =>
    cases asked
    simp only [Task.execute, Task.ofStartJob, reduceCtorEq, if_false, if_true] at refused ⊢
    apply Core.startJob_unchanged
    by_contra ok
    have accepted := (Core.startJob_ok core timeoutMs).mp (by simpa using ok)
    simp [Core.startJob, accepted] at refused
  | stop =>
    cases asked
    simp [Task.execute, Task.ofStop, Core.stop] at refused
  | command cmd baud =>
    cases asked
    simp only [Task.execute, Task.ofSync, if_true] at refused ⊢
    exact Core.handleSyncCommand_refused refused
  | result id => contradiction
  | malformed => contradiction

/-- A reply to a response has its status. -/
theorem status_onResponse {request : Request} {r : Response} {reply : Reply}
    (answered : request.onResponse r = .answered reply) : reply.status = r.httpStatus := by
  cases request with
  | start timeoutMs =>
    simp only [onResponse] at answered
    split at answered
    · contradiction
    · cases answered
      rfl
  | _ =>
    cases answered
    rfl

/-- Only a request that stops first begins with `JobRunner::stop`. -/
theorem stops_of_entry {request : Request} (halts : request.entry = .cancelling) :
    request.stops = true := by
  cases request with
  | stop => rfl
  | command cmd baud =>
    by_cases init : toUpperAscii cmd = "INIT"
    · cases baud <;> simp [entry, init] at halts
    · by_cases halt : toUpperAscii cmd = "STOP"
      · simp [stops, halt]
      · simp [entry, init, halt] at halts
  | _ => contradiction

/-- Only an accepted start calls `JobRunner::start`. -/
theorem starts_of_onResponse {request : Request} {r : Response}
    (onward : request.onResponse r = .cancelling) : request.starts = true := by
  cases request with
  | start timeoutMs => rfl
  | _ => contradiction

end Request

/-- The baudrate of a body is set whatever the core says to it, and it is positive. -/
theorem Post.configured_eq_iff (cfg : Config) (post : Post) (old : Int) :
    (post.request cfg).configured old = old ↔
      ∀ baud, (post.request cfg).baudrate = some baud → baud = old := by
  cases post with
  | command body =>
    simp only [Post.request]
    cases parsed : commandRequest body with
    | command cmd baud =>
      cases baud with
      | none =>
        by_cases init : toUpperAscii cmd = "INIT"
        · simp [Request.configured, Request.entry, Request.baudrate, init]
        · by_cases halt : toUpperAscii cmd = "STOP" <;>
            simp [Request.configured, Request.entry, Request.baudrate, init, halt]
      | some baud =>
        obtain ⟨init, low, -⟩ := commandRequest_baud parsed
        have positive : ¬ baud ≤ 0 := by omega
        simp [Request.configured, Request.entry, Request.baudrate, init, positive]
    | _ => simp [Request.configured, Request.entry, Request.baudrate]
  | start body =>
    simp only [Post.request]
    obtain malformed | started := startJobRequest_cases cfg body
    · simp [malformed, Request.configured, Request.entry, Request.baudrate]
    · simp [started, Request.configured, Request.entry, Request.baudrate]

namespace World

/-- The two states differ at most by tasks that were queued in the first. With none queued the
core is the same. -/
structure Unchanged (w v : World) : Prop where
  /-- The core has executed tasks queued before, in their order, and nothing else. -/
  core : ∃ earlier, earlier <+: w.disp.unexecuted ∧
    v.disp.core = Mealy.final Task.execute w.disp.core earlier
  /-- The baudrate. -/
  baudrate : v.baudrate = w.baudrate
  /-- The flag of the running worker. -/
  running : v.running = w.running
  /-- The thread object. -/
  handle : v.handle = w.handle
  /-- The workers. -/
  threads : v.threads = w.threads
  /-- The records. -/
  store : v.store = w.store

/-- With nothing queued the core is the same. -/
theorem Unchanged.core_eq {w v : World} (same : w.Unchanged v) (idle : w.disp.unexecuted = []) :
    v.disp.core = w.disp.core := by
  obtain ⟨earlier, front, core⟩ := same.core
  rw [idle, List.prefix_nil] at front
  simpa [front, Mealy.final] using core

/-- The state before and a later one, with this baudrate and these tasks pushed in between. -/
structure Since (w : World) (baudrate : Int) (pushed : List (Task Submitter)) (v : World) :
    Prop where
  /-- The core has executed the oldest of all these tasks. -/
  replay : ∃ earlier, w.disp.unexecuted ++ pushed = earlier ++ v.disp.unexecuted ∧
    v.disp.core = Mealy.final Task.execute w.disp.core earlier
  /-- The baudrate. -/
  baudrate : v.baudrate = baudrate
  /-- The flag of the running worker. -/
  running : v.running = w.running
  /-- The thread object. -/
  handle : v.handle = w.handle
  /-- The workers. -/
  threads : v.threads = w.threads
  /-- The records. -/
  store : v.store = w.store

/-- How far the service of a request has come, by the control point of its handler. -/
def Stage (w : World) (h : Nat) (request : Request) (v : World) : RestPc → Prop
  | .configuring baud => request.entry = .configuring baud ∧ w.Since w.baudrate [] v
  | .awaiting => ∃ task, request.task (.handler h) = some task ∧
      w.Since (request.configured w.baudrate) [task] v ∧
      v.disp.AnsweredFrom (Mealy.final Task.execute w.disp.core w.disp.unexecuted) task
  | .rejecting => w.Since (request.configured w.baudrate) [] v
  | .submitting => w.Since (request.configured w.baudrate) [] v
  | .looking _ => w.Since (request.configured w.baudrate) [] v
  | .fetching _ => w.Since (request.configured w.baudrate) [] v
  | .answered reply => 400 ≤ reply.status → reply.status < 500 →
      w.Since (request.configured w.baudrate) [] v
  -- past an accepted start
  | _ => request.starts = true

variable {w v next : World} {event : Event} {h : Nat} {request : Request} {baudrate : Int}
  {pushed : List (Task Submitter)}

/-- The state is what it was. -/
theorem Since.refl (w : World) : w.Since w.baudrate [] w :=
  ⟨⟨[], by simp, rfl⟩, rfl, rfl, rfl, rfl, rfl⟩

/-- A handler's control point is not compared. -/
theorem Since.moveTo (since : w.Since baudrate pushed v) (pc : RestPc) :
    w.Since baudrate pushed (v.moveTo h request pc) :=
  ⟨since.replay, since.baudrate, since.running, since.handle, since.threads, since.store⟩

/-- The tasks left lead to the core that all of them would have led to. -/
theorem Since.meets (since : w.Since baudrate [] v) :
    Mealy.final Task.execute w.disp.core w.disp.unexecuted =
      Mealy.final Task.execute v.disp.core v.disp.unexecuted := by
  obtain ⟨earlier, split, core⟩ := since.replay
  rw [List.append_nil] at split
  rw [split, core, Mealy.final_append]

/-- A push. -/
theorem Since.push (since : w.Since baudrate [] v) (task : Task Submitter) :
    w.Since baudrate [task] { v with disp := v.disp.push task } := by
  obtain ⟨earlier, split, core⟩ := since.replay
  refine ⟨⟨earlier, ?_, core⟩, since.baudrate, since.running, since.handle, since.threads,
    since.store⟩
  rw [List.append_nil] at split
  simp [split]

/-- A step of the dispatcher's worker. -/
theorem Since.dispatch {act : LoopAct} {disp : Dispatcher Submitter}
    (since : w.Since baudrate pushed v) (moved : v.disp.loopStep act = some disp) :
    w.Since baudrate pushed { v with disp } := by
  refine ⟨?_, since.baudrate, since.running, since.handle, since.threads, since.store⟩
  obtain ⟨earlier, split, core⟩ := since.replay
  obtain ⟨-, same, rest⟩ | ⟨task, -, -, executed, rest⟩ := Dispatcher.unexecuted_loopStep moved
  · exact ⟨earlier, by rw [split, rest], same.trans core⟩
  · refine ⟨earlier ++ [task], ?_, ?_⟩
    · rw [split, rest]
      simp
    · rw [executed, core, Mealy.final_concat]

/-- The core has executed the pushed task and refused it: it is as the earlier tasks left it. -/
theorem Since.refused {task : Task Submitter} (since : w.Since baudrate [task] v)
    (past : task ∉ v.disp.unexecuted)
    (same : (task.execute (Mealy.final Task.execute w.disp.core w.disp.unexecuted)).1 =
      Mealy.final Task.execute w.disp.core w.disp.unexecuted) : w.Since baudrate [] v := by
  obtain ⟨earlier, split, core⟩ := since.replay
  -- nothing was pushed behind it
  obtain idle | ⟨front, last, behind⟩ := List.eq_nil_or_concat v.disp.unexecuted
  · rw [idle, List.append_nil] at split
    refine ⟨⟨w.disp.unexecuted, by simp [idle], ?_⟩, since.baudrate, since.running, since.handle,
      since.threads, since.store⟩
    rw [core, ← split, Mealy.final_concat, same]
  · rw [behind, List.concat_eq_append, ← List.append_assoc] at split
    obtain ⟨-, own⟩ := List.append_inj' split rfl
    rw [behind, ← List.singleton_injective own] at past
    simp at past

/-- A step of the dispatcher's worker keeps the stage. -/
theorem Stage.dispatch {act : LoopAct} {disp : Dispatcher Submitter} {pc : RestPc}
    (distinct : v.disp.tags.Nodup) (stage : w.Stage h request v pc)
    (moved : v.disp.loopStep act = some disp) : w.Stage h request { v with disp } pc := by
  cases pc with
  | configuring baud => exact ⟨stage.1, stage.2.dispatch moved⟩
  | awaiting =>
    obtain ⟨task, asked, since, answered⟩ := stage
    exact ⟨task, asked, since.dispatch moved, answered.loopStep distinct moved⟩
  | rejecting | submitting | looking id | fetching id => exact Since.dispatch stage moved
  | answered reply => exact fun low high => (stage low high).dispatch moved
  | _ => exact stage

/-- The handler sets the baudrate. -/
theorem Stage.configure {baud : Int} (stage : w.Stage h request v (.configuring baud)) :
    w.Stage h request ({ v with
      baudrate := if baud ≤ 0 then v.baudrate else baud }.moveTo h request .submitting)
      .submitting := by
  obtain ⟨entry, since⟩ := stage
  have set : (if baud ≤ 0 then v.baudrate else baud) = request.configured w.baudrate := by
    simp [Request.configured, entry, since.baudrate]
  exact ⟨since.replay, set, since.running, since.handle, since.threads, since.store⟩

/-- The handler submits its task, which has no response yet. -/
theorem Stage.submit {task : Task Submitter} (ticketed : Ticketed v.disp v.threads v.handlers)
    (here : v.handlers[h]? = some ⟨request, .submitting⟩)
    (asked : request.task (.handler h) = some task) (stage : w.Stage h request v .submitting) :
    w.Stage h request ({ v with disp := v.disp.push task }.moveTo h request .awaiting)
      .awaiting := by
  have fresh : task.prom ∉ v.disp.tags := by
    rw [Request.task_prom asked]
    exact ticketed.unused_of_fresh here rfl
  have since : w.Since (request.configured w.baudrate) [] v := stage
  refine ⟨task, asked, (since.push task).moveTo _, ?_⟩
  rw [since.meets]
  exact Dispatcher.answeredFrom_push fresh

/-- The handler receives the response to its task. -/
theorem Stage.receive {r : Response} (stage : w.Stage h request v .awaiting)
    (ready : v.disp.future (.handler h) = some r) :
    w.Stage h request (v.moveTo h request (request.onResponse r)) (request.onResponse r) := by
  obtain ⟨task, asked, since, answered⟩ := stage
  have given : v.disp.Given task.prom r := by
    rw [Request.task_prom asked]
    exact .inr (Dispatcher.mem_of_future ready)
  obtain ⟨rfl, past⟩ := answered.response given
  obtain onward | ⟨reply, answered⟩ := request.onResponse_cases
    (task.execute (Mealy.final Task.execute w.disp.core w.disp.unexecuted)).2
  · have starts := Request.starts_of_onResponse onward
    rw [onward]
    exact starts
  · have status := Request.status_onResponse answered
    rw [answered]
    intro low _
    rw [status] at low
    exact (since.refused (fun pending => past task pending rfl)
      (Request.execute_refused asked low)).moveTo _

/-- `JobRunner::stop` returns into an accepted start. -/
theorem Stage.afterStop (starts : request.starts = true) :
    w.Stage h request v request.afterStop := by
  cases request with
  | start timeoutMs => rfl
  | _ => contradiction

/-- Every step of the service of a request keeps the stage. -/
theorem Stage.step {pc : RestPc} (ticketed : Ticketed v.disp v.threads v.handlers)
    (here : v.handlers[h]? = some ⟨request, pc⟩) (stage : w.Stage h request v pc)
    (serves : event.serves h = true) (taken : v.step event = some next) :
    ∃ pc', next.handlers[h]? = some ⟨request, pc'⟩ ∧ w.Stage h request next pc' := by
  -- a handler that moves is this one
  have own : ∀ {i : Nat} {other : Request} {point : RestPc}, decide (i = h) = true →
      v.handlers[i]? = some ⟨other, point⟩ → i = h ∧ other = request ∧ point = pc := by
    intro i other point same there
    obtain rfl : i = h := of_decide_eq_true same
    obtain ⟨rfl, rfl⟩ := Handler.mk.inj (Option.some.inj (there.symm.trans here))
    exact ⟨rfl, rfl, rfl⟩
  cases (step_move taken).2 with
  | arrive other | work found agrees moved | write found moved written
  | writeFail found moved unwritten | clear found moved | finish found moved => contradiction
  | dispatch moved => exact ⟨pc, here, stage.dispatch ticketed.distinct moved⟩
  | terminate there same => exact ⟨pc, here, (own serves there).2.2 ▸ stage⟩
  | configure there =>
    obtain ⟨rfl, rfl, rfl⟩ := own serves there
    exact ⟨_, Table.get_set_self here, stage.configure⟩
  | submit there asked =>
    obtain ⟨rfl, rfl, rfl⟩ := own serves there
    exact ⟨_, Table.get_set_self here, stage.submit ticketed here asked⟩
  | receive there ready =>
    obtain ⟨rfl, rfl, rfl⟩ := own serves there
    exact ⟨_, Table.get_set_self here, stage.receive ready⟩
  | idle there free | join there same found exited =>
    obtain ⟨rfl, rfl, rfl⟩ := own serves there
    exact ⟨_, Table.get_set_self here, Stage.afterStop stage⟩
  | create rd there =>
    obtain ⟨rfl, rfl, rfl⟩ := own serves there
    exact ⟨_, Table.get_set_self here, stage⟩
  | cancel there | wait there same | arm there | launch there free =>
    obtain ⟨rfl, rfl, rfl⟩ := own serves there
    exact ⟨_, Table.get_set_self here, stage⟩
  | look there present =>
    obtain ⟨rfl, rfl, rfl⟩ := own serves there
    exact ⟨_, Table.get_set_self here, Since.moveTo stage _⟩
  | reject there | miss there absent =>
    obtain ⟨rfl, rfl, rfl⟩ := own serves there
    exact ⟨_, Table.get_set_self here, fun _ _ => Since.moveTo stage _⟩
  | joinFail there free | fetchFail there absent | giveUp there unset =>
    -- answered with a server error
    obtain ⟨rfl, rfl, rfl⟩ := own serves there
    exact ⟨_, Table.get_set_self here, fun _ high => absurd high (by simp [errorResponse])⟩
  | reply there | fetch there found =>
    -- answered with success
    obtain ⟨rfl, rfl, rfl⟩ := own serves there
    exact ⟨_, Table.get_set_self here, fun low => absurd low (by simp)⟩

/-- A request that does not stop begins with everything as it was. -/
theorem Stage.entry (since : w.Since w.baudrate [] v) (stops : request.stops = false) :
    w.Stage h request v request.entry := by
  -- without a baudrate to set, the one to compare with is the old one
  have kept : ∀ {pc : RestPc}, request.entry = pc → (∀ baud, pc ≠ .configuring baud) →
      w.Since (request.configured w.baudrate) [] v := by
    intro pc entry other
    have same : request.configured w.baudrate = w.baudrate := by
      unfold Request.configured
      split
      · rename_i baud sets
        exact absurd (entry.symm.trans sets) (other baud)
      · rfl
    rwa [same]
  obtain submits | halts | ⟨baud, sets⟩ | ⟨id, looks⟩ | rejects := request.entry_cases
  · rw [submits]
    exact kept submits (by simp)
  · rw [Request.stops_of_entry halts] at stops
    contradiction
  · rw [sets]
    exact ⟨sets, since⟩
  · rw [looks]
    exact kept looks (by simp)
  · rw [rejects]
    exact kept rejects (by simp)

/-- A refusal that does not come from a stop leaves all but the baudrate as it was. -/
theorem since_of_service {before events : List Event} {final : World} {reply : Reply}
    (reached : Transition.run World.step {} before = some w) (goes : request.stops = false)
    (served : Transition.run World.step w (.request request :: events) = some final)
    (alone : ∀ event ∈ events, event.serves w.handlers.length = true)
    (answered : final.handlers[w.handlers.length]? = some ⟨request, .answered reply⟩)
    (low : 400 ≤ reply.status) (high : reply.status < 500) :
    w.Since (request.configured w.baudrate) [] final := by
  obtain ⟨arrived, taken, onward⟩ := Transition.run_cons.mp served
  have start : arrived.Sorted ∧ ∃ pc, arrived.handlers[w.handlers.length]? = some ⟨request, pc⟩ ∧
      w.Stage w.handlers.length request arrived pc := by
    refine ⟨(sorted reached).step taken, ?_⟩
    cases (step_move taken).2
    exact ⟨_, Table.get_spawn_last,
      Stage.entry ⟨(Since.refl w).replay, rfl, rfl, rfl, rfl, rfl⟩ goes⟩
  have ended := Transition.run_among
    (fun v : World => v.Sorted ∧ ∃ pc, v.handlers[w.handlers.length]? = some ⟨request, pc⟩ ∧
      w.Stage w.handlers.length request v pc) ?_ start onward alone
  · obtain ⟨-, pc, here, stage⟩ := ended
    obtain ⟨-, rfl⟩ := Handler.mk.inj (Option.some.inj (here.symm.trans answered))
    exact stage low high
  · intro v event next held serves moved
    obtain ⟨sorted, pc, here, stage⟩ := held
    exact ⟨sorted.step moved, stage.step sorted.ticketed here serves moved⟩

/-- A request answered with a status between 400 and 499, with no other handler and no worker
moving until the answer, changes nothing exactly if it carries no baudrate other than the one
set. -/
theorem rejection_changes_nothing_iff (cfg : Config) (post : Post) {before events : List Event}
    {w final : World} {reply : Reply}
    (reached : Transition.run World.step {} before = some w)
    (served : Transition.run World.step w (.request (post.request cfg) :: events) = some final)
    (alone : ∀ event ∈ events, event.serves w.handlers.length = true)
    (answered : final.handlers[w.handlers.length]? = some ⟨post.request cfg, .answered reply⟩)
    (refused : 400 ≤ reply.status ∧ reply.status < 500) :
    w.Unchanged final ↔
      ∀ baud, (post.request cfg).baudrate = some baud → baud = w.baudrate := by
  have replied := World.replied (Transition.run_trans reached served)
  -- a stop is never refused
  have goes : (post.request cfg).stops = false := by
    by_contra stops
    have status := replied.stopRoute _ _ answered (by simpa using stops)
    simp only at status
    omega
  have since := since_of_service reached goes served alone answered refused.1 refused.2
  rw [← Post.configured_eq_iff]
  constructor
  · intro same
    rw [← since.baudrate]
    exact same.baudrate
  · intro same
    obtain ⟨earlier, split, core⟩ := since.replay
    rw [List.append_nil] at split
    exact ⟨⟨earlier, ⟨_, split.symm⟩, core⟩, since.baudrate.trans same, since.running,
      since.handle, since.threads, since.store⟩

/-- A job is running. -/
def busyRun : List Event := initCall 0 ++ startCall 1 5000 fun _ => 0

/-- The handler 2 submits and is answered. -/
def secondCall : List Event := [.handler 2] ++ serve ++ [.handler 2]

/-- A second start is refused and changes nothing. -/
theorem busyRun_start_refused : ∃ w final reply,
    Transition.run World.step {} busyRun = some w ∧
    Transition.run World.step w
      (.request ((Post.start (some (.object []))).request {}) :: secondCall) = some final ∧
    final.handlers[w.handlers.length]? =
      some ⟨(Post.start (some (.object []))).request {}, .answered reply⟩ ∧
    reply.status = 409 ∧ w.Unchanged final ∧ final.disp.core = w.disp.core := by
  obtain ⟨w, reached, idle, final, served, reply, answered, status, alone⟩ : ∃ w,
      Transition.run World.step {} busyRun = some w ∧ w.disp.unexecuted = [] ∧ ∃ final,
      Transition.run World.step w
        (.request ((Post.start (some (.object []))).request {}) :: secondCall) = some final ∧
      ∃ reply, final.handlers[w.handlers.length]? =
        some ⟨(Post.start (some (.object []))).request {}, .answered reply⟩ ∧
      reply.status = 409 ∧ ∀ event ∈ secondCall, event.serves w.handlers.length = true :=
    ⟨_, rfl, rfl, _, rfl, _, rfl, rfl, by decide⟩
  have same := (rejection_changes_nothing_iff {} _ reached served alone answered
    (by omega)).mpr (fun baud carried => by cases carried)
  exact ⟨w, final, reply, reached, served, answered, status, same, same.core_eq idle⟩

/-- The body of an `INIT` with the baudrate `9600`. -/
def initBody : Option Json :=
  some (.object [("command", .string "INIT"),
    ("baudrate", .number ⟨.finite 9600, 9600, by decide, 0⟩)])

/-- An `INIT` is refused with `ERR:BUSY` and leaves its baudrate behind. -/
theorem busyRun_init_refused : ∃ w final reply,
    Transition.run World.step {} busyRun = some w ∧
    Transition.run World.step w
      (.request ((Post.command initBody).request {}) :: .handler 2 :: secondCall) = some final ∧
    final.handlers[w.handlers.length]? =
      some ⟨(Post.command initBody).request {}, .answered reply⟩ ∧
    reply.status = 409 ∧ reply.message = "ERR:BUSY" ∧
    w.baudrate = 115200 ∧ final.baudrate = 9600 :=
  ⟨_, _, _, rfl, rfl, rfl, rfl, rfl, rfl, rfl⟩

end World

end QrEdgeGateway
