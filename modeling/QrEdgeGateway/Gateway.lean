import QrEdgeGateway.Service

/-!
# The gateway

`gateway-py` starts a job over REST on behalf of a cloud message and polls its result.
`handle_start_and_poll` runs in a thread of its own beside the service: it posts `/start`, then
gets `/result/{jobId}` until a terminal status or its own polling deadline, and publishes what
it learns. Each request is served by a handler of the service; whether the answer arrives and
whether its body can be parsed is left to the environment, as is every reading of the clock.
Other clients of the service are its other requests. Sleeps between polls change nothing the
call can observe and are not steps.

Times are in nanoseconds. JSON texts are taken as the values they stand for. Here every event can
be published; what becomes of a call whose event cannot is a matter of the whole gateway.
-/

namespace QrEdgeGateway

/-! ## Texts of Python -/

/-- A code point that is no character and has no UTF-8. -/
def surrogate (code : Fin 1114112) : Bool := 0xD800 ≤ code.val ∧ code.val ≤ 0xDFFF

/-- A text with a surrogate in it, as `json.loads` makes of an escape that is not half of a pair. -/
structure LoneText where
  /-- Its code points. -/
  codes : List (Fin 1114112)
  /-- One of them is a surrogate. -/
  lone : codes.any surrogate = true
  deriving DecidableEq, Repr

/-- A `str` of Python: any sequence of code points. -/
inductive Text where
  /-- A sequence of characters. -/
  | unicode (s : String)
  /-- A sequence with a surrogate. -/
  | lone (text : LoneText)
  deriving DecidableEq, Repr

/-- A sequence of characters is a `str`. -/
instance : Coe String Text := ⟨.unicode⟩

/-- `encode("utf-8")` does not raise. -/
def Text.encodable : Text → Bool
  | .unicode _ => true
  | .lone _ => false

/-! ## Answers and events -/

/-- The members of a response body that the gateway reads; absent ones are `none`. -/
structure Body where
  /-- `message`. -/
  message : Option String := none
  /-- `jobId`. -/
  jobId : Option String := none
  /-- `state`. -/
  state : Option State := none
  /-- `status`. -/
  status : Option JobStatus := none
  /-- `data.qr`. -/
  qr : Option Bytes := none
  deriving DecidableEq, Repr

/-- The body an endpoint sends. -/
def Body.ofReply (reply : Reply) : Body :=
  { message := some reply.message, jobId := reply.jobId, state := reply.state,
    status := reply.jobStatus, qr := reply.qr }

/-- `safe_json`: a body that cannot be parsed is an empty object, and so is a missing one, which
is what Crow sends for an uncaught exception. -/
def safeJson (readable : Bool) (reply : Reply) : Body :=
  if readable ∧ reply.message ≠ "" then .ofReply reply else {}

/-- What `http_post` and `http_get` return when the request raises. -/
def httpFailure : Nat × Body := (0, { message := some "ERR:HTTP" })

/-- A `job_result` event. -/
structure JobReport where
  /-- `id` of the command. -/
  id : Text
  /-- `http_status`. -/
  httpStatus : Option Nat := none
  /-- `ok`. -/
  ok : Bool
  /-- `jobId`. -/
  jobId : String
  /-- `status`. -/
  status : JobStatus
  /-- `message`. -/
  message : Option String
  /-- `state`. -/
  state : Option State := none
  /-- `qr`. -/
  qr : Option Bytes := none
  deriving DecidableEq, Repr

/-- An event published to the cloud. -/
inductive GatewayEvent where
  /-- `job_rejected`. -/
  | jobRejected (id : Text) (httpStatus : Nat) (message : String)
  /-- `job_accepted`. -/
  | jobAccepted (id : Text) (httpStatus : Nat) (jobId : String) (state : Option State)
      (message : Option String)
  /-- `job_result`. -/
  | jobResult (report : JobReport)
  deriving DecidableEq, Repr

/-- Control point of `handle_start_and_poll`. -/
inductive PollPc where
  /-- At `http_post("/start", ...)`. -/
  | posting
  /-- The `/start` request is with the handler `h`. -/
  | starting (h : Nat)
  /-- At the clock reading that sets the deadline. -/
  | dating (jobId : String)
  /-- At the clock reading of the loop condition. -/
  | head (jobId : String) (deadline : Int)
  /-- At `http_get`. -/
  | getting (jobId : String) (deadline : Int)
  /-- The `/result` request is with the handler `h`. -/
  | waiting (jobId : String) (deadline : Int) (h : Nat)
  /-- Returned. -/
  | returned
  deriving DecidableEq, Repr

/-- One `handle_start_and_poll(client, cmd_id, timeout_ms)` call. -/
structure StartAndPoll where
  /-- `cmd_id`. -/
  id : Text
  /-- `timeout_ms`. -/
  timeoutMs : Int
  /-- `POLL_MAX_SECONDS`. -/
  pollMax : Int := 6000000000
  /-- Where the call is. -/
  pc : PollPc := .posting
  /-- What it has published so far. -/
  published : List GatewayEvent := []
  deriving DecidableEq, Repr

/-- How the service takes the body of the gateway's `/start`: `timeout_ms` becomes an `int`, and
one that is not positive is refused. -/
def startRequest (timeoutMs : Int) : Request :=
  if timeoutMs.bmod 4294967296 ≤ 0 then .malformed else .start (timeoutMs.bmod 4294967296)

namespace StartAndPoll

/-- Publish an event and go on. -/
def publish (call : StartAndPoll) (event : GatewayEvent) (pc : PollPc) : StartAndPoll :=
  { call with published := call.published ++ [event], pc }

/-- After `http_post`. -/
def onStart (call : StartAndPoll) (sc : Nat) (j : Body) : StartAndPoll :=
  if sc ≠ 202 then call.publish (.jobRejected call.id sc (j.message.getD "ERR")) .returned
  else call.publish (.jobAccepted call.id sc (j.jobId.getD "") j.state j.message)
    (.dating (j.jobId.getD ""))

/-- After `http_get`. -/
def onPoll (call : StartAndPoll) (jobId : String) (deadline : Int) (gsc : Nat) (gj : Body) :
    StartAndPoll :=
  match gj.status with
  | some status =>
    if gsc = 200 ∧ status.Terminal then
      call.publish (.jobResult
        { id := call.id, httpStatus := some gsc, ok := true, jobId, status,
          message := gj.message, state := gj.state, qr := gj.qr }) .returned
    else { call with pc := .head jobId deadline }
  | none => { call with pc := .head jobId deadline }

/-- The event behind the loop. -/
def pollTimeout (call : StartAndPoll) (jobId : String) : JobReport :=
  { id := call.id, ok := false, jobId, status := .timeout, message := some "ERR:POLL_TIMEOUT" }

/-- The loop condition. -/
def onTime (call : StartAndPoll) (jobId : String) (deadline now : Int) : StartAndPoll :=
  if now < deadline then { call with pc := .getting jobId deadline }
  else call.publish (.jobResult (call.pollTimeout jobId)) .returned

variable {call : StartAndPoll}

/-- What is published is what was, and one more. -/
theorem mem_publish {event other : GatewayEvent} {pc : PollPc} :
    other ∈ (call.publish event pc).published ↔ other ∈ call.published ∨ other = event := by
  simp [publish]

/-- After `http_post` the call waits for no poll. -/
theorem onStart_not_waiting (call : StartAndPoll) (sc : Nat) (j : Body) (jobId : String)
    (deadline : Int) (h : Nat) : (call.onStart sc j).pc ≠ .waiting jobId deadline h := by
  unfold onStart
  split <;> simp [publish]

/-- `http_post` leads to no report. -/
theorem report_of_onStart {sc : Nat} {j : Body} {report : JobReport}
    (found : .jobResult report ∈ (call.onStart sc j).published) :
    .jobResult report ∈ call.published := by
  unfold onStart at found
  split at found
  all_goals
    obtain old | new := mem_publish.mp found
    · exact old
    · contradiction

/-- After `http_get` the call goes round its loop, with nothing published, or has published what
it was told and returned. -/
theorem onPoll_cases (call : StartAndPoll) (jobId : String) (deadline : Int) (gsc : Nat)
    (gj : Body) :
    call.onPoll jobId deadline gsc gj = { call with pc := .head jobId deadline } ∨
      ∃ status, gsc = 200 ∧ gj.status = some status ∧ status.Terminal ∧
        call.onPoll jobId deadline gsc gj = call.publish (.jobResult
          { id := call.id, httpStatus := some gsc, ok := true, jobId, status,
            message := gj.message, state := gj.state, qr := gj.qr }) .returned := by
  unfold onPoll
  split
  · rename_i status told
    split
    · rename_i ended
      exact .inr ⟨status, ended.1, told, ended.2, rfl⟩
    · exact .inl rfl
  · exact .inl rfl

/-- After `http_get` the call waits for no poll. -/
theorem onPoll_not_waiting (call : StartAndPoll) (polled : String) (due : Int) (gsc : Nat)
    (gj : Body) (jobId : String) (deadline : Int) (h : Nat) :
    (call.onPoll polled due gsc gj).pc ≠ .waiting jobId deadline h := by
  obtain same | ⟨_, -, -, -, same⟩ := call.onPoll_cases polled due gsc gj <;>
    simp [same, publish]

/-- A report behind `http_get` says what the answer said. -/
theorem report_of_onPoll {jobId : String} {deadline : Int} {gsc : Nat} {gj : Body}
    {report : JobReport}
    (found : .jobResult report ∈ (call.onPoll jobId deadline gsc gj).published) :
    .jobResult report ∈ call.published ∨ gsc = 200 ∧ gj.status = some report.status ∧
      report.status.Terminal ∧ report.jobId = jobId ∧ report.message = gj.message ∧
      report.qr = gj.qr := by
  obtain same | ⟨status, code, told, terminal, same⟩ := call.onPoll_cases jobId deadline gsc gj
  · rw [same] at found
    exact .inl found
  · rw [same] at found
    obtain old | new := mem_publish.mp found
    · exact .inl old
    · cases new
      exact .inr ⟨code, told, terminal, rfl, rfl, rfl⟩

/-- Behind its loop condition the call waits for no poll yet. -/
theorem onTime_not_waiting (call : StartAndPoll) (polled : String) (due now : Int)
    (jobId : String) (deadline : Int) (h : Nat) :
    (call.onTime polled due now).pc ≠ .waiting jobId deadline h := by
  unfold onTime
  split <;> simp [publish]

/-- The call keeps its arguments. -/
theorem args_onStart (sc : Nat) (j : Body) :
    (call.onStart sc j).id = call.id ∧ (call.onStart sc j).timeoutMs = call.timeoutMs ∧
      (call.onStart sc j).pollMax = call.pollMax := by
  unfold onStart
  split <;> exact ⟨rfl, rfl, rfl⟩

/-- So after a poll. -/
theorem args_onPoll (jobId : String) (deadline : Int) (gsc : Nat) (gj : Body) :
    (call.onPoll jobId deadline gsc gj).id = call.id ∧
      (call.onPoll jobId deadline gsc gj).timeoutMs = call.timeoutMs ∧
      (call.onPoll jobId deadline gsc gj).pollMax = call.pollMax := by
  obtain same | ⟨status, -, -, -, same⟩ := call.onPoll_cases jobId deadline gsc gj <;>
    rw [same] <;> exact ⟨rfl, rfl, rfl⟩

/-- So at the loop condition. -/
theorem args_onTime (jobId : String) (deadline now : Int) :
    (call.onTime jobId deadline now).id = call.id ∧
      (call.onTime jobId deadline now).timeoutMs = call.timeoutMs ∧
      (call.onTime jobId deadline now).pollMax = call.pollMax := by
  unfold onTime
  split <;> exact ⟨rfl, rfl, rfl⟩

end StartAndPoll

/-- The service and one call of the gateway. -/
structure Bridge where
  /-- The service. -/
  world : World
  /-- The call. -/
  call : StartAndPoll

/-- One step of the service or of the call. -/
inductive BridgeEvent where
  /-- The service moves. -/
  | service (event : Event)
  /-- The call's request reaches the service. -/
  | send
  /-- The call's request raises: no connection, or no answer in time. -/
  | lose
  /-- The answer to the call's request arrives. -/
  | receive (readable : Bool)
  /-- The call reads the clock. -/
  | time (now : Int)

namespace Bridge

/-- A call is made while the service starts. -/
def start (id : Text) (timeoutMs pollMax : Int) : Bridge :=
  ⟨{}, { id, timeoutMs, pollMax }⟩

/-- Hand a request to the service. -/
def ask (b : Bridge) (request : Request) (pc : PollPc) : Option Bridge :=
  (b.world.step (.request request)).map fun world => ⟨world, { b.call with pc }⟩

/-- The answer of the handler number `h`. -/
def reply (b : Bridge) (h : Nat) : Option Reply :=
  match b.world.handlers[h]? with
  | some ⟨_, .answered reply⟩ => some reply
  | _ => none

/-- One step. -/
def step (b : Bridge) : BridgeEvent → Option Bridge
  | .service event => (b.world.step event).map fun world => { b with world }
  | .send =>
    match b.call.pc with
    | .posting => b.ask (startRequest b.call.timeoutMs) (.starting b.world.handlers.length)
    | .getting jobId deadline =>
      b.ask (.result jobId) (.waiting jobId deadline b.world.handlers.length)
    | _ => none
  | .lose =>
    match b.call.pc with
    | .posting => some { b with call := b.call.onStart httpFailure.1 httpFailure.2 }
    | .starting _ => some { b with call := b.call.onStart httpFailure.1 httpFailure.2 }
    | .getting jobId deadline =>
      some { b with call := b.call.onPoll jobId deadline httpFailure.1 httpFailure.2 }
    | .waiting jobId deadline _ =>
      some { b with call := b.call.onPoll jobId deadline httpFailure.1 httpFailure.2 }
    | _ => none
  | .receive readable =>
    match b.call.pc with
    | .starting h => (b.reply h).map fun reply =>
        { b with call := b.call.onStart reply.status (safeJson readable reply) }
    | .waiting jobId deadline h => (b.reply h).map fun reply =>
        { b with call := b.call.onPoll jobId deadline reply.status (safeJson readable reply) }
    | _ => none
  | .time now =>
    match b.call.pc with
    | .dating jobId =>
      some { b with call := { b.call with pc := .head jobId (now + b.call.pollMax) } }
    | .head jobId deadline => some { b with call := b.call.onTime jobId deadline now }
    | _ => none

/-- What one step can be. Every guard of the step function is a premise. -/
inductive Move (b : Bridge) : BridgeEvent → Bridge → Prop where
  /-- The service moves. -/
  | service {event : Event} {world : World} (taken : b.world.step event = some world) :
      Move b (.service event) { b with world }
  /-- The `/start` request arrives. -/
  | post {world : World} (here : b.call.pc = .posting)
      (taken : b.world.step (.request (startRequest b.call.timeoutMs)) = some world) :
      Move b .send ⟨world, { b.call with pc := .starting b.world.handlers.length }⟩
  /-- A `/result` request arrives. -/
  | get {jobId : String} {deadline : Int} {world : World}
      (here : b.call.pc = .getting jobId deadline)
      (taken : b.world.step (.request (.result jobId)) = some world) :
      Move b .send
        ⟨world, { b.call with pc := .waiting jobId deadline b.world.handlers.length }⟩
  /-- The `/start` request is lost. -/
  | loseStart (here : b.call.pc = .posting ∨ ∃ h, b.call.pc = .starting h) :
      Move b .lose { b with call := b.call.onStart httpFailure.1 httpFailure.2 }
  /-- A `/result` request is lost. -/
  | losePoll {jobId : String} {deadline : Int}
      (here : b.call.pc = .getting jobId deadline ∨ ∃ h, b.call.pc = .waiting jobId deadline h) :
      Move b .lose { b with call := b.call.onPoll jobId deadline httpFailure.1 httpFailure.2 }
  /-- The `/start` request is answered. -/
  | answerStart {h : Nat} {request : Request} {reply : Reply} (readable : Bool)
      (here : b.call.pc = .starting h)
      (found : b.world.handlers[h]? = some ⟨request, .answered reply⟩) :
      Move b (.receive readable)
        { b with call := b.call.onStart reply.status (safeJson readable reply) }
  /-- A `/result` request is answered. -/
  | answerPoll {jobId : String} {deadline : Int} {h : Nat} {request : Request} {reply : Reply}
      (readable : Bool) (here : b.call.pc = .waiting jobId deadline h)
      (found : b.world.handlers[h]? = some ⟨request, .answered reply⟩) :
      Move b (.receive readable)
        { b with call := b.call.onPoll jobId deadline reply.status (safeJson readable reply) }
  /-- The deadline is set. -/
  | date {jobId : String} (now : Int) (here : b.call.pc = .dating jobId) :
      Move b (.time now)
        { b with call := { b.call with pc := .head jobId (now + b.call.pollMax) } }
  /-- The loop condition is evaluated. -/
  | check {jobId : String} {deadline : Int} (now : Int)
      (here : b.call.pc = .head jobId deadline) :
      Move b (.time now) { b with call := b.call.onTime jobId deadline now }

variable {b next : Bridge} {event : BridgeEvent}

/-- An answer is the answer of a handler. -/
theorem reply_some {h : Nat} {answer : Reply} (found : b.reply h = some answer) :
    ∃ request, b.world.handlers[h]? = some ⟨request, .answered answer⟩ := by
  unfold reply at found
  split at found
  · rename_i request found' there
    obtain rfl := Option.some.inj found
    exact ⟨request, there⟩
  · contradiction

/-- Every step is one of the moves. -/
theorem step_move (taken : b.step event = some next) : Move b event next := by
  cases event with
  | service event =>
    obtain ⟨world, moved, rfl⟩ := Option.map_eq_some_iff.mp taken
    exact .service moved
  | send =>
    simp only [step] at taken
    split at taken
    · rename_i here
      obtain ⟨world, moved, rfl⟩ := Option.map_eq_some_iff.mp taken
      exact .post here moved
    · rename_i jobId deadline here
      obtain ⟨world, moved, rfl⟩ := Option.map_eq_some_iff.mp taken
      exact .get here moved
    · contradiction
  | lose =>
    simp only [step] at taken
    split at taken
    · rename_i here
      cases taken
      exact .loseStart (.inl here)
    · rename_i h here
      cases taken
      exact .loseStart (.inr ⟨h, here⟩)
    · rename_i jobId deadline here
      cases taken
      exact .losePoll (.inl here)
    · rename_i jobId deadline h here
      cases taken
      exact .losePoll (.inr ⟨h, here⟩)
    · contradiction
  | receive readable =>
    simp only [step] at taken
    split at taken
    · rename_i h here
      obtain ⟨answer, found, rfl⟩ := Option.map_eq_some_iff.mp taken
      obtain ⟨request, there⟩ := reply_some found
      exact .answerStart readable here there
    · rename_i jobId deadline h here
      obtain ⟨answer, found, rfl⟩ := Option.map_eq_some_iff.mp taken
      obtain ⟨request, there⟩ := reply_some found
      exact .answerPoll readable here there
    · contradiction
  | time now =>
    simp only [step] at taken
    split at taken
    · rename_i jobId here
      cases taken
      exact .date now here
    · rename_i jobId deadline here
      cases taken
      exact .check now here
    · contradiction

/-- Every step keeps the arguments of the call. -/
theorem args_step (taken : b.step event = some next) :
    next.call.id = b.call.id ∧ next.call.timeoutMs = b.call.timeoutMs ∧
      next.call.pollMax = b.call.pollMax := by
  cases step_move taken with
  | service moved | post here moved | get here moved | date now here => exact ⟨rfl, rfl, rfl⟩
  | loseStart here => exact StartAndPoll.args_onStart _ _
  | answerStart readable here found => exact StartAndPoll.args_onStart _ _
  | losePoll here => exact StartAndPoll.args_onPoll _ _ _ _
  | answerPoll readable here found => exact StartAndPoll.args_onPoll _ _ _ _
  | check now here => exact StartAndPoll.args_onTime _ _ _

end Bridge

end QrEdgeGateway
