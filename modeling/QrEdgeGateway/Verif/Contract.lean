import QrEdgeGateway.Verif.Answers
import QrEdgeGateway.Verif.ServiceProgress

/-!
# The interface document

`docs/openapi.yaml` lists for every operation the statuses it answers and the members of each
body, and contract tests hold the service to it. Over every run, two replies are not in it: an
`INIT` refused while a job runs, which the document does not mention, and the failure of a `join`
that another call of `JobRunner` has overtaken. A poll for an identifier that was handed out
always finds its record.
-/

namespace QrEdgeGateway

/-! ## What is documented -/

/-- The schemas of the bodies, by their names in the document. -/
inductive Schema where
  /-- `ErrorResponse`. -/
  | errorResponse
  /-- `CommandResponse`. -/
  | commandResponse
  /-- `StartResponse`. -/
  | startResponse
  /-- `ResultResponse`. -/
  | resultResponse
  /-- `StopResponse`. -/
  | stopResponse
  deriving DecidableEq, Repr

/-- The members a schema requires beyond `ok` and `message`, and the one text it allows where it
names one. `data`, which two of them require, is set to an object wherever it is missing. -/
def Schema.fits : Schema → Reply → Bool
  | .errorResponse, _ => true
  | .commandResponse, reply => reply.command.isSome && reply.state.isSome
  | .startResponse, reply =>
    reply.jobId.isSome && reply.state.isSome && decide (reply.message = "ACCEPTED")
  | .resultResponse, reply =>
    reply.jobId.isSome && reply.jobStatus.isSome && reply.state.isSome
  | .stopResponse, reply => reply.state.isSome && decide (reply.message = "OK")

/-- The responses of an operation. Bodies that fail validation are bodies of `/command` or
`/start`, and both document the same response to them. -/
def Request.responses : Request → List (Nat × Schema)
  | .command _ _ => [(200, .commandResponse), (400, .errorResponse), (503, .errorResponse)]
  | .start _ =>
    [(202, .startResponse), (409, .errorResponse), (400, .errorResponse), (503, .errorResponse)]
  | .result _ => [(200, .resultResponse), (404, .errorResponse)]
  | .stop => [(200, .stopResponse), (503, .errorResponse)]
  | .malformed => [(400, .errorResponse)]

namespace Reply

/-- The reply is one the document lists for the request. -/
def Documented (request : Request) (reply : Reply) : Prop :=
  ∃ schema, (reply.status, schema) ∈ request.responses ∧ schema.fits reply = true

/-- An `INIT` is refused while a job runs. -/
def InitRefused (request : Request) (reply : Reply) : Prop :=
  (∃ cmd baud, request = .command cmd baud ∧ toUpperAscii cmd = "INIT") ∧
    reply.status = 409 ∧ reply.message = "ERR:BUSY" ∧ reply.state = some .running

/-- The `join` of a start or a stop has found the thread object joined already. -/
def JoinFailed (request : Request) (reply : Reply) : Prop :=
  (request.starts = true ∨ request.stops = true) ∧ reply = errorResponse 500 ""

/-- The document does not mention the first of the two. -/
theorem InitRefused.not_documented {request : Request} {reply : Reply}
    (refused : reply.InitRefused request) : ¬ reply.Documented request := by
  obtain ⟨⟨cmd, baud, rfl, -⟩, status, -⟩ := refused
  rintro ⟨schema, listed, -⟩
  simp [Request.responses, status] at listed

/-- Nor the second. -/
theorem JoinFailed.not_documented {request : Request} {reply : Reply}
    (failed : reply.JoinFailed request) : ¬ reply.Documented request := by
  obtain ⟨-, rfl⟩ := failed
  rintro ⟨schema, listed, -⟩
  cases request <;> simp [Request.responses, errorResponse] at listed

end Reply

/-! ## The way to a reply -/

/-- Where a request can be, and what it is answered, where a `join` fails only if calls have
overlapped. -/
def Handler.OnRoute (overlapped : Prop) (hd : Handler) : Prop :=
  match hd.pc with
  | .rejecting => hd.request = .malformed
  | .cancelling => hd.request.starts = true ∨ hd.request.stops = true
  | .checking => hd.request.starts = true ∨ hd.request.stops = true
  | .joining => hd.request.starts = true ∨ hd.request.stops = true
  | .replying _ => hd.request.starts = true
  | .looking id => hd.request = .result id
  | .fetching id => hd.request = .result id
  | .answered reply =>
    reply.Documented hd.request ∨ reply.InitRefused hd.request ∨
      overlapped ∧ reply.JoinFailed hd.request
  | _ => True

namespace Request

variable {overlapped : Prop}

/-- A request enters on its route. -/
theorem onRoute_entry (request : Request) :
    (⟨request, request.entry⟩ : Handler).OnRoute overlapped := by
  cases request with
  | start timeoutMs => trivial
  | stop => exact .inr rfl
  | result id => exact rfl
  | malformed => exact rfl
  | command cmd baud =>
    by_cases init : toUpperAscii cmd = "INIT"
    · cases baud <;> simp [Handler.OnRoute, entry, init]
    · by_cases halt : toUpperAscii cmd = "STOP" <;>
        simp [Handler.OnRoute, entry, init, halt, stops]

/-- `JobRunner::stop` leads on. -/
theorem onRoute_afterStop (request : Request) :
    (⟨request, request.afterStop⟩ : Handler).OnRoute overlapped := by
  cases request <;> trivial

/-- Outside `INIT` and `RUNNING` together, a command is answered 200 or 400. -/
theorem status_of_command (core : Core) (cmd : String)
    (free : ¬ (Core.upper cmd = "INIT" ∧ core.st = .running)) :
    (core.handleSyncCommand cmd).2.httpStatus = 200 ∨
      (core.handleSyncCommand cmd).2.httpStatus = 400 := by
  unfold Core.handleSyncCommand
  dsimp only
  split
  · exact .inl rfl
  · split
    · rename_i init
      rw [if_neg fun running => free ⟨init, running⟩]
      exact .inl rfl
    · split
      · exact .inl rfl
      · split <;> exact .inr rfl

/-- What the core answers to a command is documented, but for an `INIT` while it is `RUNNING`. -/
theorem onRoute_command (core : Core) (cmd : String) (baud : Option Int) :
    (⟨.command cmd baud, (Request.command cmd baud).onResponse
      (core.handleSyncCommand (toUpperAscii cmd)).2⟩ : Handler).OnRoute overlapped := by
  have same : Core.upper (toUpperAscii cmd) = toUpperAscii cmd := Core.upper_upper cmd
  by_cases busy : Core.upper (toUpperAscii cmd) = "INIT" ∧ core.st = .running
  · refine .inr (.inl ⟨⟨cmd, baud, rfl, same.symm.trans busy.1⟩, ?_⟩)
    simp [Core.handleSyncCommand, busy.1, busy.2]
  · obtain done | refused := status_of_command core (toUpperAscii cmd) busy
    · exact .inl ⟨.commandResponse, by simp [responses, done], rfl⟩
    · exact .inl ⟨.errorResponse, by simp [responses, refused], rfl⟩

/-- A response of the core leads on, or to a reply. -/
theorem onRoute_receive {request : Request} {prom : Submitter} {task : Task Submitter}
    (core : Core) (asked : request.task prom = some task) :
    (⟨request, request.onResponse (task.execute core).2⟩ : Handler).OnRoute overlapped := by
  cases request with
  | start timeoutMs =>
    by_cases ok : (task.execute core).2.ok = true
    · have on : (Request.start timeoutMs).onResponse (task.execute core).2 = .cancelling :=
        if_pos ok
      rw [on]
      exact .inl rfl
    · have refused := status_of_starts core rfl asked (by simpa using ok)
      have out : (Request.start timeoutMs).onResponse (task.execute core).2 =
          .answered (errorResponse 409 (task.execute core).2.message) := by
        simp [onResponse, ok, refused]
      rw [out]
      exact .inl ⟨.errorResponse, by simp [responses, errorResponse], rfl⟩
  | stop =>
    cases asked
    have out : Request.stop.onResponse ((Task.ofStop prom).execute core).2 =
        .answered { status := 200, ok := true, state := some .stopped, message := "OK" } := rfl
    rw [out]
    exact .inl ⟨.stopResponse, by simp [responses], by simp [Schema.fits]⟩
  | command cmd baud =>
    cases asked
    have own : (Task.ofSync (toUpperAscii cmd) prom).execute core =
        core.handleSyncCommand (toUpperAscii cmd) := by simp [Task.execute, Task.ofSync]
    rw [own]
    exact onRoute_command core cmd baud
  | result id => contradiction
  | malformed => contradiction

/-- A request with a task is told when its task is late. -/
theorem documented_giveUp {request : Request} (asks : (request.task ()).isSome = true) :
    (errorResponse 503 "ERR:BUSY").Documented request := by
  cases request with
  | result id => contradiction
  | malformed => contradiction
  | _ => exact ⟨.errorResponse, by simp [responses, errorResponse], rfl⟩

/-- A request that starts is told that it was accepted. -/
theorem documented_accepted {request : Request} (starts : request.starts = true) (id : String)
    (state : State) : Reply.Documented request
      { status := 202, ok := true, jobId := some id, state := some state,
        message := "ACCEPTED" } := by
  cases request with
  | start timeoutMs => exact ⟨.startResponse, by simp [responses], by simp [Schema.fits]⟩
  | _ => contradiction

end Request

namespace World

variable {w next : World} {event : Event} {events : List Event} {overlapped : Prop}

/-- Every step keeps every request on its route. -/
theorem onRoute_step (alive : w.Alive) (answers : Answers w.disp w.handlers)
    (excuse : Table.All w.handlers fun _ hd => hd.pc = .joining → w.handle = none → overlapped)
    (held : Table.All w.handlers fun _ hd => hd.OnRoute overlapped)
    (taken : w.step event = some next) :
    Table.All next.handlers fun _ hd => hd.OnRoute overlapped := by
  cases (step_move taken).2 with
  | arrive request => exact held.spawn request.onRoute_entry
  | reject here =>
    obtain rfl : _ = Request.malformed := held _ _ here
    exact held.set (.inl ⟨.errorResponse, by decide, rfl⟩)
  | receive here ready =>
    obtain ⟨task, core, asked, rfl⟩ := answers.own here ready
    exact held.set (Request.onRoute_receive core asked)
  | cancel here | wait here same =>
    have calls := held _ _ here
    exact held.set calls
  | idle here free | join here same found exited => exact held.set (Request.onRoute_afterStop _)
  | joinFail here free =>
    have calls := held _ _ here
    exact held.set (.inr (.inr ⟨excuse _ _ here rfl free, calls, rfl⟩))
  | launch here free =>
    have starts := alive.sorted.typed _ _ here
    exact held.set starts
  | reply here => exact held.set (.inl (Request.documented_accepted (held _ _ here) _ _))
  | look here present =>
    have same := held _ _ here
    exact held.set same
  | miss here absent =>
    obtain rfl : _ = Request.result _ := held _ _ here
    exact held.set (.inl ⟨.errorResponse, by simp [Request.responses, errorResponse], rfl⟩)
  | fetch here found =>
    obtain rfl : _ = Request.result _ := held _ _ here
    exact held.set (.inl ⟨.resultResponse, by simp [Request.responses], rfl⟩)
  | fetchFail here absent =>
    -- `exists` has seen the record, and no record is ever removed
    have present := alive.recorded.handler _ _ here _ rfl
    rw [absent] at present
    contradiction
  | giveUp here unset =>
    have asks := alive.asks _ _ here
    exact held.set (.inl (Request.documented_giveUp asks))
  | terminate here same | work found agrees moved | write found moved written
  | writeFail found moved unwritten | clear found moved | finish found moved
  | dispatch moved => exact held
  | create rd here => exact held.set trivial
  | _ here => exact held.set trivial

/-- What every reply rests on. -/
structure Told (overlapped : Prop) (w : World) : Prop where
  /-- Every wait is for somebody who can move. -/
  alive : w.Alive
  /-- Responses come from the core. -/
  answers : Answers w.disp w.handlers
  /-- Requests are on their routes. -/
  route : Table.All w.handlers fun _ hd => hd.OnRoute overlapped

/-- Every step keeps it. -/
theorem Told.step (held : w.Told overlapped)
    (excuse : Table.All w.handlers fun _ hd => hd.pc = .joining → w.handle = none → overlapped)
    (taken : w.step event = some next) : next.Told overlapped where
  alive := held.alive.step taken
  answers := held.answers.step held.alive.sorted.ticketed taken
  route := onRoute_step held.alive held.answers excuse held.route taken

/-- It holds at the start. -/
theorem told_start : ({} : World).Told overlapped :=
  ⟨alive Transition.run_nil, (replied Transition.run_nil).answers, by simp⟩

/-- In every reachable state it holds. -/
theorem told (reached : Transition.run World.step {} events = some w) : w.Told True :=
  Transition.run_stable (Told True) (fun held taken => held.step (fun _ _ _ _ _ => trivial) taken)
    told_start reached

/-- The interface document holds of every reply but two kinds: the refusal of an `INIT` while a
job runs and the failure of an overtaken `join`. While calls of `JobRunner` do not overlap, the
second does not occur. -/
theorem document_kept_iff (events : List Event) (w : World)
    (reached : Transition.run World.step {} events = some w) (h : Nat) (request : Request)
    (reply : Reply) (answered : w.handlers[h]? = some ⟨request, .answered reply⟩) :
    (reply.Documented request ↔ ¬ (reply.InitRefused request ∨ reply.JoinFailed request)) ∧
      (Transition.Along World.step (fun w event => w.intrudes event = false) {} events →
        ¬ reply.JoinFailed request) := by
  constructor
  · constructor
    · rintro documented (refused | failed)
      · exact refused.not_documented documented
      · exact failed.not_documented documented
    · intro neither
      obtain documented | refused | ⟨-, failed⟩ := (told reached).route h _ answered
      · exact documented
      · exact absurd (.inl refused) neither
      · exact absurd (.inr failed) neither
  · intro apart failed
    have told : w.Unbroken ∧ w.Told False := by
      refine Transition.run_invariant (fun w : World => w.Unbroken ∧ w.Told False) ?_
        ⟨unbroken_start, told_start⟩ reached apart
      rintro state event after ⟨unbroken, told⟩ one taken
      have excuse : Table.All state.handlers fun _ hd =>
          hd.pc = .joining → state.handle = none → False := unbroken.exclusive.joins
      exact ⟨unbroken.step one taken, told.step excuse taken⟩
    obtain documented | refused | ⟨impossible, -⟩ := told.2.route h _ answered
    · exact failed.not_documented documented
    · have status := refused.2.1
      rw [failed.2] at status
      contradiction
    · exact impossible

/-- A job is running and another client asks for `INIT`. -/
def initWhileRunning : List Event :=
  initCall 0 ++ (startCall 1 5000 fun _ => 0) ++ initCall 2

/-- The start is answered as documented, and the second `INIT` in a way the document lacks. -/
theorem initWhileRunning_undocumented : ∃ w accepted refused,
    Transition.run World.step {} initWhileRunning = some w ∧
    w.handlers[1]? = some ⟨.start 5000, .answered accepted⟩ ∧
    accepted.Documented (.start 5000) ∧
    w.handlers[2]? = some ⟨.command "INIT" none, .answered refused⟩ ∧
    ¬ refused.Documented (.command "INIT" none) := by
  obtain ⟨w, reached, accepted, started, taken, refused, asked, status⟩ : ∃ w,
      Transition.run World.step {} initWhileRunning = some w ∧ ∃ accepted,
      w.handlers[1]? = some ⟨.start 5000, .answered accepted⟩ ∧ accepted.status = 202 ∧
      ∃ refused, w.handlers[2]? = some ⟨.command "INIT" none, .answered refused⟩ ∧
      refused.status = 409 ∧ refused.message = "ERR:BUSY" ∧ refused.state = some .running :=
    ⟨_, rfl, _, rfl, rfl, _, rfl, rfl, rfl, rfl⟩
  have first := document_kept_iff initWhileRunning w reached 1 _ _ started
  have second := document_kept_iff initWhileRunning w reached 2 _ _ asked
  refine ⟨w, accepted, refused, reached, started, ?_, asked, ?_⟩
  · apply first.1.mpr
    rintro (⟨⟨_, _, differs, -⟩, -⟩ | failed)
    · contradiction
    · exact first.2 (by decide) failed
  · intro documented
    apply second.1.mp documented
    exact .inl ⟨⟨_, _, rfl, by decide⟩, status⟩

/-! ## Identifiers handed out -/

/-- No record is ever removed. -/
theorem present_step {id : String} (present : (w.store.get id).isSome = true)
    (taken : w.step event = some next) : (next.store.get id).isSome = true := by
  cases (step_move taken).2 with
  | create rd here => exact JobStore.get_create_isSome _ _ _ present
  | write found moved written =>
    rw [JobStore.get_write written]
    split
    · rfl
    · exact present
  | _ => exact present

/-- The handler `h` has launched the worker of this job. -/
def Launches (threads : List Thread) (h : Nat) (id : String) : Prop :=
  Table.Any threads fun _ thread => thread.owner = h ∧ thread.job.id = id

/-- Workers keep their owners and their jobs. -/
theorem launches_step {h : Nat} {id : String} (launches : Launches w.threads h id)
    (taken : w.step event = some next) : Launches next.threads h id := by
  cases (step_move taken).2 with
  | launch here free => exact Table.Any.spawn launches
  | work found agrees moved | write found moved written | writeFail found moved unwritten
  | clear found moved | finish found moved =>
    have same := (Job.step_cases moved).1
    exact Table.Any.set launches found fun ⟨owner, id⟩ => ⟨owner, same.trans id⟩
  | _ => exact launches

/-- A start call answers, or is about to, with the job it has launched. -/
def Names (threads : List Thread) (h : Nat) (hd : Handler) : Prop :=
  match hd.pc with
  | .replying id => Launches threads h id
  | .answered reply => reply.status = 202 → ∃ id, reply.jobId = some id ∧ Launches threads h id
  | _ => True

/-- What is launched stays launched. -/
theorem Names.mono {threads more : List Thread} {h : Nat} {hd : Handler}
    (names : Names threads h hd) (kept : ∀ id, Launches threads h id → Launches more h id) :
    Names more h hd := by
  unfold Names at names ⊢
  split at names
  · exact kept _ names
  · intro accepted
    obtain ⟨id, named, launches⟩ := names accepted
    exact ⟨id, named, kept id launches⟩
  · trivial

end World

/-- No response of the core makes a handler answer 202: a start goes on into `JobRunner`. -/
theorem Request.names_receive {request : Request} {prom : Submitter} {task : Task Submitter}
    (threads : List Thread) (h : Nat) (core : Core) (asked : request.task prom = some task) :
    World.Names threads h ⟨request, request.onResponse (task.execute core).2⟩ := by
  cases request with
  | start timeoutMs =>
    by_cases ok : (task.execute core).2.ok = true
    · simp [World.Names, onResponse, ok]
    · have refused := status_of_starts core rfl asked (by simpa using ok)
      simp [World.Names, onResponse, ok, errorResponse, refused]
  | stop =>
    cases asked
    intro accepted
    have differs : 200 = 202 := accepted
    contradiction
  | command cmd baud =>
    have route : Handler.OnRoute False ⟨.command cmd baud, _⟩ := onRoute_receive core asked
    intro accepted
    obtain ⟨schema, listed, -⟩ | ⟨-, refused, -⟩ | ⟨impossible, -⟩ := route
    · rw [accepted] at listed
      simp [responses] at listed
    · rw [accepted] at refused
      contradiction
    · exact impossible.elim
  | result id => contradiction
  | malformed => contradiction

namespace World

variable {w next : World} {event : Event} {events : List Event}

/-- Every step keeps the answers of the start calls right. -/
theorem names_step (answers : Answers w.disp w.handlers)
    (held : Table.All w.handlers fun h hd => Names w.threads h hd)
    (taken : w.step event = some next) :
    Table.All next.handlers fun h hd => Names next.threads h hd := by
  have kept : Table.All w.handlers fun h hd => Names next.threads h hd :=
    held.mono fun _ _ _ names => names.mono fun _ launches => launches_step launches taken
  cases (step_move taken).2 with
  | arrive request =>
    apply kept.spawn
    obtain here | here | ⟨_, here⟩ | ⟨_, here⟩ | here := request.entry_cases
    all_goals simp [Names, here]
  | receive here ready =>
    obtain ⟨task, core, asked, rfl⟩ := answers.own here ready
    exact kept.set (Request.names_receive _ _ core asked)
  | @idle h request here free | @join h k request thread here same found exited =>
    apply kept.set
    cases request <;> trivial
  | launch here free => exact kept.set ⟨_, _, Table.get_spawn_last, rfl, rfl⟩
  | reply here =>
    have launches := kept _ _ here
    exact kept.set fun _ => ⟨_, rfl, launches⟩
  | reject here | joinFail here free | miss here absent | fetch here found
  | fetchFail here absent | giveUp here unset =>
    apply kept.set
    intro accepted
    simp [errorResponse] at accepted
  | terminate here same | work found agrees moved | write found moved written
  | writeFail found moved unwritten | clear found moved | finish found moved
  | dispatch moved => exact kept
  | create rd here => exact kept.set trivial
  | _ here => exact kept.set trivial

/-- A start that is answered 202 names a job it has launched. -/
theorem names (reached : Transition.run World.step {} events = some w) :
    Table.All w.handlers fun h hd => Names w.threads h hd := by
  have held : w.Replied ∧ Table.All w.handlers fun h hd => Names w.threads h hd := by
    refine Transition.run_stable (fun w : World => w.Replied ∧
      Table.All w.handlers fun h hd => Names w.threads h hd) ?_
      ⟨replied Transition.run_nil, by simp⟩ reached
    rintro state event after ⟨replied, names⟩ taken
    exact ⟨replied.step taken, names_step replied.answers names taken⟩
  exact held.2

/-- The record is there, and the polls for it that came after the first `count` requests find
it. -/
structure Found (id : String) (count : Nat) (w : World) : Prop where
  /-- The record is there. -/
  present : (w.store.get id).isSome = true
  /-- No later poll misses it. -/
  polls : Table.All w.handlers fun h hd => count ≤ h → hd.request = .result id →
    match hd.pc with
    | .looking other => other = id
    | .fetching other => other = id
    | .answered reply => reply.status = 200 ∧ reply.jobId = some id
    | _ => False

/-- Every step keeps it. -/
theorem Found.step {id : String} {count : Nat} (held : w.Found id count)
    (taken : w.step event = some next) : next.Found id count := by
  refine ⟨present_step held.present taken, ?_⟩
  have present := held.present
  cases (step_move taken).2 with
  | arrive request =>
    apply held.polls.spawn
    intro _ polls
    cases polls
    exact rfl
  | look here there =>
    have same := held.polls _ _ here
    exact held.polls.set same
  | miss here absent | fetchFail here absent =>
    apply held.polls.set
    intro late polls
    obtain rfl : _ = id := held.polls _ _ here late polls
    rw [absent] at present
    contradiction
  | fetch here found =>
    apply held.polls.set
    intro late polls
    obtain rfl : _ = id := held.polls _ _ here late polls
    exact ⟨rfl, rfl⟩
  | terminate here same | work found agrees moved | write found moved written
  | writeFail found moved unwritten | clear found moved | finish found moved
  | dispatch moved => exact held.polls
  | create rd here => exact held.polls.set fun late polls => (held.polls _ _ here late polls).elim
  | _ here => exact held.polls.set fun late polls => (held.polls _ _ here late polls).elim

/-- A start that is answered 202 names its job, and every poll for that job that arrives after
the answer is answered 200, never 404. -/
theorem accepted_job_is_found (events more : List Event) (w final : World)
    (reached : Transition.run World.step {} events = some w)
    (onward : Transition.run World.step w more = some final)
    (h : Nat) (request : Request) (reply : Reply)
    (answered : w.handlers[h]? = some ⟨request, .answered reply⟩)
    (accepted : reply.status = 202) :
    ∃ id, reply.jobId = some id ∧ ∀ p seen, w.handlers.length ≤ p →
      final.handlers[p]? = some ⟨.result id, .answered seen⟩ →
        seen.status = 200 ∧ seen.jobId = some id := by
  obtain ⟨id, named, k, thread, found, -, rfl⟩ := names reached h _ answered accepted
  have present : (w.store.get thread.job.id).isSome = true :=
    (alive reached).recorded.worker k thread found
  have start : w.Found thread.job.id w.handlers.length := by
    refine ⟨present, fun i hd here late => ?_⟩
    have early := Table.lt_length here
    omega
  have found : final.Found thread.job.id w.handlers.length :=
    Transition.run_stable (Found thread.job.id w.handlers.length)
      (fun held taken => held.step taken) start onward
  exact ⟨_, named, fun p seen late polled => found.polls p _ polled late rfl⟩

/-- A start is accepted, and its job is polled before it has begun. -/
theorem early_poll_found : ∃ w final seen,
    Transition.run World.step {} (initCall 0 ++ startCall 1 5000 fun _ => 0) = some w ∧
    Transition.run World.step w [.request (.result "00000000"), .handler 2, .handler 2] =
      some final ∧
    final.handlers[2]? = some ⟨.result "00000000", .answered seen⟩ ∧ seen.status = 200 := by
  obtain ⟨w, reached, accepted, started, status, named, final, onward, seen, polled, late⟩ : ∃ w,
      Transition.run World.step {} (initCall 0 ++ startCall 1 5000 fun _ => 0) = some w ∧
      ∃ accepted, w.handlers[1]? = some ⟨.start 5000, .answered accepted⟩ ∧
      accepted.status = 202 ∧ accepted.jobId = some "00000000" ∧ ∃ final,
      Transition.run World.step w [.request (.result "00000000"), .handler 2, .handler 2] =
        some final ∧ ∃ seen,
      final.handlers[2]? = some ⟨.result "00000000", .answered seen⟩ ∧
      w.handlers.length ≤ 2 := ⟨_, rfl, _, rfl, rfl, rfl, _, rfl, _, rfl, by decide⟩
  obtain ⟨id, own, found⟩ :=
    accepted_job_is_found _ _ w final reached onward 1 _ accepted started status
  obtain rfl := Option.some.inj (named.symm.trans own)
  exact ⟨w, final, seen, reached, onward, polled, (found 2 seen late polled).1⟩

end World

end QrEdgeGateway
