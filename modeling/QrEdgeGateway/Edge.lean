import QrEdgeGateway.Messages

/-!
# The edge

gateway-py and the service together. The gateway takes messages from the cloud one after the
other; each is refused at once or gets a thread of its own, and any number of those threads run
beside each other and beside the service. A request of a thread becomes a handler of the service,
and the thread may stop waiting for it at any time. Other clients of the service are its other
requests.

The thread of a start is the polling call, which moves as it does alone with the service, as long
as what it publishes can be published: an event on which `publish_event` raises ends the thread.
What a thread has published, the event it raised on, the message it serves and the handler that
took its first request are kept with it.
-/

namespace QrEdgeGateway

/-- What the two programs are set to, and what they rest on. -/
structure Site where
  /-- The Python runtime. -/
  py : Builtins
  /-- Crow's reading of bodies. -/
  crow : CrowReading
  /-- `QR_START_TIMEOUT_MS`. -/
  startTimeoutMs : Int := 1000
  /-- `POLL_MAX_SECONDS`. -/
  pollMax : Int := 6000000000
  /-- A QR payload as a text. -/
  text : Bytes → String

/-! ## Answers as the gateway reads them -/

/-- The JSON object of a reply. `data` is there for `/command` and `/result`, and the former has
the `jobId` in it. -/
def Reply.members (text : Bytes → String) (reply : Reply) : Members :=
  let jobId := Members.optional "jobId" (reply.jobId.map fun jobId => .str jobId)
  let qr := Members.optional "qr" (reply.qr.map fun qr => .str (text qr))
  let data : Members :=
    if reply.command.isSome then Members.optional "data" (some (.dict (qr ++ jobId)))
    else jobId ++ Members.optional "data" (reply.jobStatus.map fun _ => .dict qr)
  Members.optional "ok" (some (.bool reply.ok)) ++
    Members.optional "command" (reply.command.map fun command => .str command) ++
    Members.optional "status" (reply.jobStatus.map fun status => .str status.toString) ++
    Members.optional "state" (reply.state.map fun state => .str state.toString) ++
    Members.optional "message" (some (.str reply.message)) ++ data

/-- What an answered request comes to; an uncaught exception is answered without a body. -/
def Reply.outcome (text : Bytes → String) (readable : Bool) (reply : Reply) : HttpOutcome :=
  .answered reply.status
    (if readable ∧ reply.message ≠ "" then some (reply.members text) else none)

/-! ## Threads -/

/-- A call of `handle_command_sync` or `handle_stop`: one request and one event. -/
inductive SyncCall where
  /-- `handle_command_sync`. -/
  | command (cmdId cmd : Text) (params : Option Members)
  /-- `handle_stop`. -/
  | stop (cmdId : Text)

namespace SyncCall

/-- The handler it is a call of. -/
def handler : SyncCall → CloudHandler
  | .command cmdId cmd params => .commandSync cmdId cmd params
  | .stop cmdId => .stop cmdId

/-- `cmd_id`. -/
def cmdId : SyncCall → Text
  | .command cmdId _ _ => cmdId
  | .stop cmdId => cmdId

/-- Its request, as the service takes it; `/stop` does not look at the body. -/
def asks (crow : CrowReading) (call : SyncCall) : Request :=
  match call with
  | .command _ _ _ => commandRequest (some (call.handler.forwarded crow))
  | .stop _ => .stop

/-- Its event, from what `http_post` returned. -/
def event (call : SyncCall) (result : Nat × Members) : CloudEvent :=
  match call with
  | .command cmdId cmd _ => .commandAck cmdId cmd result.1 result.2
  | .stop cmdId => .stopAck cmdId result.1 result.2

/-- It publishes what its handler publishes. -/
theorem publishes_handler (call : SyncCall) (can : CloudEvent → Bool) (pollMax : Int)
    (around : Surroundings) (fuel : Nat) :
    call.handler.publishes can pollMax around fuel =
      some ([call.event around.post.result].filter can) := by
  cases call <;> rfl

end SyncCall

/-- Control point of such a call. -/
inductive SyncPc where
  /-- At `http_post`. -/
  | posting
  /-- The request is with the handler `h`. -/
  | waiting (h : Nat)
  /-- Returned, with the event published. -/
  | returned (event : CloudEvent)
  /-- Ended by a `publish_event` that raised. -/
  | raised

/-- What a message led to. -/
inductive TalkThread where
  /-- `on_message` made the event itself. -/
  | refused (event : CloudEvent)
  /-- A thread with one request. -/
  | sync (call : SyncCall) (pc : SyncPc)
  /-- A thread that starts a job and polls it. -/
  | start (call : StartAndPoll)

namespace TalkThread

/-- What `on_message` did with the message. -/
def reaction : TalkThread → Reaction
  | .refused event => .publish event
  | .sync call _ => .dispatch call.handler
  | .start call => .dispatch (.startAndPoll call.id call.timeoutMs)

/-- The thread has ended, or there is none. -/
def returned : TalkThread → Bool
  | .refused _ => true
  | .sync _ (.returned _) => true
  | .sync _ .raised => true
  | .sync _ _ => false
  | .start call => call.pc = .returned

/-- What has been published. -/
def published (site : Site) : TalkThread → List CloudEvent
  | .refused event => [event.orInternal site.py.publishes]
  | .sync _ (.returned event) => [event]
  | .sync _ _ => []
  | .start call => call.cloudEvents site.text

/-- The first request, as the service takes it. -/
def asks (crow : CrowReading) : TalkThread → Option Request
  | .refused _ => none
  | .sync call _ => some (call.asks crow)
  | .start call => some (startRequest call.timeoutMs)

end TalkThread

/-- The thread a reaction starts. -/
def Reaction.thread (pollMax : Int) : Reaction → TalkThread
  | .publish event => .refused event
  | .dispatch (.commandSync cmdId cmd params) => .sync (.command cmdId cmd params) .posting
  | .dispatch (.stop cmdId) => .sync (.stop cmdId) .posting
  | .dispatch (.startAndPoll id timeoutMs) => .start { id, timeoutMs, pollMax }

/-- A thread is what its message led to. -/
@[simp] theorem Reaction.reaction_thread (reaction : Reaction) (pollMax : Int) :
    (reaction.thread pollMax).reaction = reaction := by
  cases reaction with
  | publish event => rfl
  | dispatch handler => cases handler <;> rfl

/-- A message and what it has led to so far. -/
structure Talk where
  /-- The message. -/
  payload : Payload
  /-- The clock when it came, in milliseconds. -/
  clockMs : Int
  /-- What it led to. -/
  thread : TalkThread
  /-- The handler of the service that took the first request. -/
  first : Option Nat := none
  /-- The event on which `publish_event` raised in the thread. -/
  raised : Option CloudEvent := none

/-- A message just received: `on_message` has run. -/
def Site.receives (site : Site) (payload : Payload) (clockMs : Int) : Talk where
  payload := payload
  clockMs := clockMs
  thread := (onMessage site.py site.startTimeoutMs clockMs payload).thread site.pollMax

namespace Talk

/-- `http_post` has returned to a thread with one request, which publishes its event and ends. -/
def concludes (site : Site) (talk : Talk) (call : SyncCall) (result : Nat × Members) : Talk :=
  if site.py.publishes (call.event result) then
    { talk with thread := .sync call (.returned (call.event result)) }
  else { talk with thread := .sync call .raised, raised := some (call.event result) }

/-- The polling call has gone on from `call` to `later`; an event that cannot be published ends
it where it is. -/
def goesOn (site : Site) (talk : Talk) (call later : StartAndPoll) : Talk :=
  match (later.published.drop call.published.length).find? fun event =>
    !site.py.publishes (event.toCloud site.text) with
  | none => { talk with thread := .start later }
  | some event =>
    { talk with
      thread := .start { call with pc := .returned }, raised := some (event.toCloud site.text) }

/-- The event of a thread with one request is published, or the thread is ended by it. -/
theorem concludes_cases (site : Site) (talk : Talk) (call : SyncCall) (result : Nat × Members) :
    talk.concludes site call result =
        { talk with thread := .sync call (.returned (call.event result)) } ∨
      site.py.publishes (call.event result) = false ∧ talk.concludes site call result =
        { talk with thread := .sync call .raised, raised := some (call.event result) } := by
  unfold concludes
  split
  · exact .inl rfl
  · rename_i cannot
    exact .inr ⟨by simpa using cannot, rfl⟩

/-- A polling call goes on, or an event that it makes ends it. -/
theorem goesOn_cases (site : Site) (talk : Talk) (call later : StartAndPoll) :
    talk.goesOn site call later = { talk with thread := .start later } ∨
      ∃ event ∈ later.published.drop call.published.length,
        site.py.publishes (event.toCloud site.text) = false ∧
        talk.goesOn site call later = { talk with
          thread := .start { call with pc := .returned },
          raised := some (event.toCloud site.text) } := by
  unfold goesOn
  split
  · exact .inl rfl
  · rename_i event found
    have cannot := List.find?_some found
    exact .inr ⟨event, List.mem_of_find?_eq_some found, by simpa using cannot, rfl⟩

end Talk

/-! ## Steps -/

/-- The gateway and the service. -/
structure Edge where
  /-- The service. -/
  world : World := {}
  /-- Every message received so far. -/
  talks : List Talk := []

/-- One step of a thread of the gateway. -/
inductive TalkAct where
  /-- Its request reaches the service. -/
  | send
  /-- Its request raises. -/
  | lose
  /-- The answer to its request arrives. -/
  | receive (readable : Bool)
  /-- It reads the clock. -/
  | time (now : Int)

/-- The same step of the polling call. -/
def TalkAct.toBridge : TalkAct → BridgeEvent
  | .send => .send
  | .lose => .lose
  | .receive readable => .receive readable
  | .time now => .time now

/-- One step of the two programs. -/
inductive EdgeEvent where
  /-- The service moves, or another client asks. -/
  | service (event : Event)
  /-- A message arrives. -/
  | message (payload : Payload) (clockMs : Int)
  /-- A thread moves. -/
  | talk (m : Nat) (act : TalkAct)

namespace Edge

/-- The answer of the handler number `h`. -/
def reply (e : Edge) (h : Nat) : Option Reply :=
  match e.world.handlers[h]? with
  | some ⟨_, .answered reply⟩ => some reply
  | _ => none

/-- One step of a call with one request. -/
def syncStep (site : Site) (e : Edge) (m : Nat) (talk : Talk) (call : SyncCall) :
    SyncPc → TalkAct → Option Edge
  | .posting, .send =>
    (e.world.step (.request (call.asks site.crow))).map fun world =>
      ⟨world, e.talks.set m { talk with
        thread := .sync call (.waiting e.world.handlers.length),
        first := some e.world.handlers.length }⟩
  | .posting, .lose =>
    some { e with talks := e.talks.set m (talk.concludes site call HttpOutcome.raised.result) }
  | .waiting _, .lose =>
    some { e with talks := e.talks.set m (talk.concludes site call HttpOutcome.raised.result) }
  | .waiting h, .receive readable =>
    (e.reply h).map fun reply => { e with
      talks := e.talks.set m
        (talk.concludes site call (reply.outcome site.text readable).result) }
  | _, _ => none

/-- The handler that takes the first request of a polling call, once it has been sent. -/
def firstAfter (e : Edge) (talk : Talk) (call : StartAndPoll) : TalkAct → Option Nat
  | .send => if call.pc = .posting then some e.world.handlers.length else talk.first
  | _ => talk.first

/-- One step of a polling call. -/
def callStep (site : Site) (e : Edge) (m : Nat) (talk : Talk) (call : StartAndPoll)
    (act : TalkAct) : Option Edge :=
  (Bridge.step ⟨e.world, call⟩ act.toBridge).map fun b =>
    ⟨b.world, e.talks.set m
      ({ talk with first := e.firstAfter talk call act }.goesOn site call b.call)⟩

/-- One step. -/
def step (site : Site) (e : Edge) : EdgeEvent → Option Edge
  | .service event => (e.world.step event).map fun world => { e with world }
  | .message payload clockMs =>
    some { e with talks := e.talks ++ [site.receives payload clockMs] }
  | .talk m act =>
    match e.talks[m]? with
    | some talk =>
      match talk.thread with
      | .refused _ => none
      | .sync call pc => e.syncStep site m talk call pc act
      | .start call => e.callStep site m talk call act
    | none => none

/-- What one step can be. Every guard of the step function is a premise. -/
inductive Move (site : Site) (e : Edge) : EdgeEvent → Edge → Prop where
  /-- The service moves. -/
  | service {event : Event} {world : World} (taken : e.world.step event = some world) :
      Move site e (.service event) { e with world }
  /-- A message arrives. -/
  | message (payload : Payload) (clockMs : Int) :
      Move site e (.message payload clockMs)
        { e with talks := e.talks ++ [site.receives payload clockMs] }
  /-- The request of a call arrives. -/
  | post {m : Nat} {talk : Talk} {call : SyncCall} {world : World}
      (here : e.talks[m]? = some talk) (thread : talk.thread = .sync call .posting)
      (taken : e.world.step (.request (call.asks site.crow)) = some world) :
      Move site e (.talk m .send) ⟨world, e.talks.set m { talk with
        thread := .sync call (.waiting e.world.handlers.length),
        first := some e.world.handlers.length }⟩
  /-- The request of a call is lost. -/
  | lose {m : Nat} {talk : Talk} {call : SyncCall} {pc : SyncPc}
      (here : e.talks[m]? = some talk) (thread : talk.thread = .sync call pc)
      (going : talk.thread.returned = false) :
      Move site e (.talk m .lose) { e with
        talks := e.talks.set m (talk.concludes site call HttpOutcome.raised.result) }
  /-- The request of a call is answered. -/
  | answer {m h : Nat} {talk : Talk} {call : SyncCall} {request : Request} {reply : Reply}
      (readable : Bool) (here : e.talks[m]? = some talk)
      (thread : talk.thread = .sync call (.waiting h))
      (found : e.world.handlers[h]? = some ⟨request, .answered reply⟩) :
      Move site e (.talk m (.receive readable)) { e with
        talks := e.talks.set m
          (talk.concludes site call (reply.outcome site.text readable).result) }
  /-- A polling call moves. -/
  | call {m : Nat} {talk : Talk} {call : StartAndPoll} {act : TalkAct} {b : Bridge}
      (here : e.talks[m]? = some talk) (thread : talk.thread = .start call)
      (moved : Bridge.step ⟨e.world, call⟩ act.toBridge = some b) :
      Move site e (.talk m act) ⟨b.world, e.talks.set m
        ({ talk with first := e.firstAfter talk call act }.goesOn site call b.call)⟩

variable {site : Site} {e next : Edge} {event : EdgeEvent}

/-- An answer is the answer of a handler. -/
theorem reply_some {h : Nat} {answer : Reply} (found : e.reply h = some answer) :
    ∃ request, e.world.handlers[h]? = some ⟨request, .answered answer⟩ := by
  unfold reply at found
  split at found
  · rename_i request found' there
    obtain rfl := Option.some.inj found
    exact ⟨request, there⟩
  · contradiction

/-- A step of a call with one request is one of its moves. -/
theorem syncStep_move {m : Nat} {talk : Talk} {call : SyncCall} {pc : SyncPc} {act : TalkAct}
    (here : e.talks[m]? = some talk) (thread : talk.thread = .sync call pc)
    (moved : e.syncStep site m talk call pc act = some next) :
    Move site e (.talk m act) next := by
  unfold syncStep at moved
  split at moved
  · obtain ⟨world, taken, rfl⟩ := Option.map_eq_some_iff.mp moved
    exact .post here thread taken
  · cases moved
    exact .lose here thread (by simp [thread, TalkThread.returned])
  · cases moved
    exact .lose here thread (by simp [thread, TalkThread.returned])
  · obtain ⟨answer, found, rfl⟩ := Option.map_eq_some_iff.mp moved
    obtain ⟨request, there⟩ := reply_some found
    exact .answer _ here thread there
  · contradiction

/-- Every step is one of the moves. -/
theorem step_move (taken : e.step site event = some next) : Move site e event next := by
  cases event with
  | service event =>
    obtain ⟨world, moved, rfl⟩ := Option.map_eq_some_iff.mp taken
    exact .service moved
  | message payload clockMs =>
    cases taken
    exact .message payload clockMs
  | talk m act =>
    simp only [step] at taken
    split at taken
    · rename_i talk here
      split at taken
      · contradiction
      · rename_i call pc thread
        exact syncStep_move here thread taken
      · rename_i call thread
        obtain ⟨b, moved, rfl⟩ := Option.map_eq_some_iff.mp taken
        exact .call here thread moved
    · contradiction

end Edge

end QrEdgeGateway
