import QrEdgeGateway.Edge
import QrEdgeGateway.Lib.Progress
import QrEdgeGateway.Lib.Table
import QrEdgeGateway.Verif.CloudAnswers
import QrEdgeGateway.Verif.Validators

/-!
# Conversations with the cloud

Any number of messages are under way at once, in any order of steps of their threads, of the
service and of its other clients. Each message keeps to its own conversation: nothing is
published for it but its answer, in the order of an answer and with its id, and the answer ends
once. It ends early where `publish_event` raises, and the error without an id takes its place
where `on_message` does. The gateway does not depend on the service for it: a request that is
never answered raises, so the threads can always return on their own.
-/

namespace QrEdgeGateway

open CloudEvent

/-! ## One thread -/

namespace StartAndPoll

/-- The job has been announced, and nothing more. -/
def Announced (call : StartAndPoll) (jobId : String) : Prop :=
  ∃ state message, call.published = [.jobAccepted call.id 202 jobId state message]

/-- What the call has published, by where it is. -/
def Shape (call : StartAndPoll) : Prop :=
  match call.pc with
  | .posting => call.published = []
  | .starting _ => call.published = []
  | .dating jobId => call.Announced jobId
  | .head jobId _ => call.Announced jobId
  | .getting jobId _ => call.Announced jobId
  | .waiting jobId _ _ => call.Announced jobId
  | .returned => (∃ sc message, call.published = [.jobRejected call.id sc message]) ∨
    ∃ jobId state message report, call.published =
      [.jobAccepted call.id 202 jobId state message, .jobResult report] ∧ report.id = call.id

variable {call : StartAndPoll}

/-- After `http_post` the job is announced or rejected. -/
theorem shape_onStart (silent : call.published = []) (sc : Nat) (j : Body) :
    (call.onStart sc j).Shape := by
  unfold onStart
  split
  · exact .inl ⟨sc, j.message.getD "ERR", by simp [publish, silent]⟩
  · rename_i accepted
    have code : sc = 202 := by simpa using accepted
    exact ⟨j.state, j.message, by simp [publish, silent, code]⟩

/-- A result behind the announcement ends the answer. -/
theorem shape_publish {jobId : String} {report : JobReport} (announced : call.Announced jobId)
    (own : report.id = call.id) : (call.publish (.jobResult report) .returned).Shape := by
  obtain ⟨state, message, one⟩ := announced
  exact .inr ⟨jobId, state, message, report, by simp [publish, one], own⟩

/-- After `http_get` the result follows the announcement, or nothing does. -/
theorem shape_onPoll {jobId : String} (announced : call.Announced jobId) (deadline : Int)
    (gsc : Nat) (gj : Body) : (call.onPoll jobId deadline gsc gj).Shape := by
  obtain same | ⟨status, -, -, -, same⟩ := call.onPoll_cases jobId deadline gsc gj
  · rw [same]
    exact announced
  · rw [same]
    exact shape_publish announced rfl

/-- So at the loop condition. -/
theorem shape_onTime {jobId : String} (announced : call.Announced jobId) (deadline now : Int) :
    (call.onTime jobId deadline now).Shape := by
  unfold onTime
  split
  · exact announced
  · exact shape_publish announced rfl

/-- The event may be the next one of the call: the answer to its start, or behind the announcement
a result. -/
def MayPublish (call : StartAndPoll) (event : GatewayEvent) : Prop :=
  (call.published = [] ∧ ((∃ sc message, event = .jobRejected call.id sc message) ∨
    ∃ jobId state message, event = .jobAccepted call.id 202 jobId state message)) ∨
  ((∃ jobId, call.Announced jobId) ∧ ∃ report, report.id = call.id ∧ event = .jobResult report)

variable {made : GatewayEvent}

/-- What `http_post` leads to. -/
theorem mayPublish_onStart (silent : call.published = []) {sc : Nat} {j : Body}
    (new : made ∈ (call.onStart sc j).published.drop call.published.length) :
    call.MayPublish made := by
  refine .inl ⟨silent, ?_⟩
  unfold onStart at new
  split at new
  · exact .inl ⟨sc, j.message.getD "ERR", by simpa [publish, silent] using new⟩
  · rename_i accepted
    have code : sc = 202 := by simpa using accepted
    exact .inr ⟨j.jobId.getD "", j.state, j.message, by simpa [publish, silent, code] using new⟩

/-- What `http_get` leads to. -/
theorem mayPublish_onPoll {jobId : String} (announced : call.Announced jobId) {deadline : Int}
    {gsc : Nat} {gj : Body}
    (new : made ∈ (call.onPoll jobId deadline gsc gj).published.drop call.published.length) :
    call.MayPublish made := by
  obtain same | ⟨status, -, -, -, same⟩ := call.onPoll_cases jobId deadline gsc gj
  · simp [same] at new
  · exact .inr ⟨⟨jobId, announced⟩, _, rfl, by simpa [same, publish] using new⟩

/-- What the loop condition leads to. -/
theorem mayPublish_onTime {jobId : String} (announced : call.Announced jobId)
    {deadline now : Int}
    (new : made ∈ (call.onTime jobId deadline now).published.drop call.published.length) :
    call.MayPublish made := by
  unfold onTime at new
  split at new
  · simp at new
  · exact .inr ⟨⟨jobId, announced⟩, _, rfl, by simpa [publish] using new⟩

end StartAndPoll

namespace Bridge

variable {b next : Bridge} {event : BridgeEvent}

/-- Every step keeps the order of what is published. -/
theorem shape_step (shape : b.call.Shape) (taken : b.step event = some next) :
    next.call.Shape := by
  unfold StartAndPoll.Shape at shape
  cases step_move taken with
  | service moved => exact shape
  | post here moved | get here moved | date now here =>
    rw [here] at shape
    exact shape
  | loseStart here =>
    have silent : b.call.published = [] := by
      obtain here | ⟨h, here⟩ := here <;> rwa [here] at shape
    exact StartAndPoll.shape_onStart silent httpFailure.1 httpFailure.2
  | answerStart readable here found =>
    rw [here] at shape
    exact StartAndPoll.shape_onStart shape _ _
  | @losePoll polled due here =>
    have announced : b.call.Announced polled := by
      obtain here | ⟨h, here⟩ := here <;> rwa [here] at shape
    exact StartAndPoll.shape_onPoll announced due httpFailure.1 httpFailure.2
  | answerPoll readable here found =>
    rw [here] at shape
    exact StartAndPoll.shape_onPoll shape _ _ _
  | check now here =>
    rw [here] at shape
    exact StartAndPoll.shape_onTime shape _ _

/-- Only a thread under way moves on its own. -/
theorem going_of_talk {w : World} {call : StartAndPoll} {thread : TalkThread} {act : TalkAct}
    (start : thread = .start call) (moved : Bridge.step ⟨w, call⟩ act.toBridge = some next) :
    thread.returned = false := by
  have going : call.pc ≠ .returned := by
    intro returned
    cases act <;> simp [TalkAct.toBridge, step, returned] at moved
  rw [start]
  simpa [TalkThread.returned] using going

/-- What a step makes is what may come next. -/
theorem mayPublish_step (shape : b.call.Shape) (taken : b.step event = some next)
    {made : GatewayEvent} (new : made ∈ next.call.published.drop b.call.published.length) :
    b.call.MayPublish made := by
  unfold StartAndPoll.Shape at shape
  cases step_move taken with
  | service moved | post here moved | get here moved | date now here => simp at new
  | loseStart here =>
    have silent : b.call.published = [] := by
      obtain here | ⟨h, here⟩ := here <;> rwa [here] at shape
    exact StartAndPoll.mayPublish_onStart silent new
  | answerStart readable here found =>
    rw [here] at shape
    exact StartAndPoll.mayPublish_onStart shape new
  | @losePoll polled due here =>
    have announced : b.call.Announced polled := by
      obtain here | ⟨h, here⟩ := here <;> rwa [here] at shape
    exact StartAndPoll.mayPublish_onPoll announced new
  | answerPoll readable here found =>
    rw [here] at shape
    exact StartAndPoll.mayPublish_onPoll shape new
  | check now here =>
    rw [here] at shape
    exact StartAndPoll.mayPublish_onTime shape new

end Bridge

/-- What a thread has published is of its kind. -/
def TalkThread.Shape : TalkThread → Prop
  | .refused _ => True
  | .sync call (.returned event) => ∃ result, event = call.event result
  | .sync _ .raised => False
  | .sync _ _ => True
  | .start call => call.Shape

/-- The thread has been ended by an event it made. -/
def TalkThread.CutShort (text : Bytes → String) (event : CloudEvent) : TalkThread → Prop
  | .sync call .raised => ∃ result, event = call.event result
  | .start call => call.pc = .returned ∧ ∃ made, call.MayPublish made ∧ event = made.toCloud text
  | _ => False

/-- A thread begins with nothing published. -/
theorem Reaction.shape_thread (reaction : Reaction) (pollMax : Int) :
    (reaction.thread pollMax).Shape := by
  cases reaction with
  | publish event => trivial
  | dispatch handler => cases handler <;> trivial

/-- The conversation is the one of its message. -/
structure Talk.Orderly (site : Site) (talk : Talk) : Prop where
  /-- The thread is the one `on_message` starts. -/
  origin : talk.thread.reaction =
    onMessage site.py site.startTimeoutMs talk.clockMs talk.payload
  /-- What is published is in order, up to the event that cannot be published. -/
  shape : match talk.raised with
    | none => talk.thread.Shape
    | some event =>
      site.py.publishes event = false ∧ talk.thread.CutShort site.text event

namespace Talk

variable {site : Site} {talk : Talk}

/-- Nothing has been raised in a thread that is under way. -/
theorem Orderly.unraised (orderly : talk.Orderly site) (going : talk.thread.returned = false) :
    talk.raised = none ∧ talk.thread.Shape := by
  have shape := orderly.shape
  cases raised : talk.raised with
  | none => exact ⟨rfl, by rwa [raised] at shape⟩
  | some event =>
    rw [raised] at shape
    have cut := shape.2
    unfold TalkThread.CutShort at cut
    split at cut
    · rename_i same
      rw [same] at going
      contradiction
    · rename_i same
      simp [same, TalkThread.returned, cut.1] at going
    · contradiction

/-- The event of a thread with one request ends the conversation. -/
theorem Orderly.concludes {call : SyncCall} {pc : SyncPc} (orderly : talk.Orderly site)
    (thread : talk.thread = .sync call pc) (going : talk.thread.returned = false)
    (result : Nat × Members) : (talk.concludes site call result).Orderly site := by
  have origin := orderly.origin
  have unraised := (orderly.unraised going).1
  rw [thread] at origin
  obtain same | ⟨cannot, same⟩ := talk.concludes_cases site call result
  · rw [same]
    exact ⟨origin, by rw [unraised]; exact ⟨result, rfl⟩⟩
  · rw [same]
    exact ⟨origin, cannot, result, rfl⟩

/-- The polling call goes on in order. -/
theorem Orderly.goesOn {call : StartAndPoll} {w : World} {act : TalkAct} {b : Bridge}
    (orderly : talk.Orderly site) (thread : talk.thread = .start call)
    (moved : Bridge.step ⟨w, call⟩ act.toBridge = some b) (first : Option Nat) :
    ({ talk with first := first }.goesOn site call b.call).Orderly site := by
  obtain ⟨unraised, shape⟩ := orderly.unraised (Bridge.going_of_talk thread moved)
  have origin := orderly.origin
  rw [thread] at origin shape
  have before : (Bridge.mk w call).call.Shape := shape
  obtain ⟨id, timeoutMs, -⟩ := Bridge.args_step moved
  obtain same | ⟨event, new, cannot, same⟩ :=
    { talk with first := first }.goesOn_cases site call b.call
  · rw [same]
    refine ⟨?_, by rw [unraised]; exact Bridge.shape_step before moved⟩
    simp only [TalkThread.reaction, id, timeoutMs]
    exact origin
  · rw [same]
    exact ⟨origin, cannot, rfl, event, Bridge.mayPublish_step before moved new, rfl⟩

end Talk

namespace Edge

variable {site : Site} {e next : Edge} {event : EdgeEvent} {events : List EdgeEvent}

/-- Every step keeps the conversations in order. -/
theorem orderly_step (held : Table.All e.talks fun _ talk => talk.Orderly site)
    (taken : e.step site event = some next) :
    Table.All next.talks fun _ talk => talk.Orderly site := by
  cases step_move taken with
  | service moved => exact held
  | message payload clockMs =>
    exact held.spawn ⟨Reaction.reaction_thread _ _, Reaction.shape_thread _ _⟩
  | post here thread moved =>
    have orderly := held _ _ here
    have unraised := (orderly.unraised (by rw [thread]; rfl)).1
    have origin := orderly.origin
    rw [thread] at origin
    exact held.set ⟨origin, by rw [unraised]; trivial⟩
  | lose here thread going => exact held.set ((held _ _ here).concludes thread going _)
  | answer readable here thread found =>
    exact held.set ((held _ _ here).concludes thread (by rw [thread]; rfl) _)
  | call here thread moved => exact held.set ((held _ _ here).goesOn thread moved _)

/-- In every reachable state the conversations are in order. -/
theorem orderly (reached : Transition.run (Edge.step site) {} events = some e) :
    Table.All e.talks fun _ talk => talk.Orderly site :=
  Transition.run_stable (fun e : Edge => Table.All e.talks fun _ talk => talk.Orderly site)
    (fun held taken => orderly_step held taken) (by simp) reached

end Edge

/-! ## What an ordered conversation says -/

section

variable {py : Builtins} {startTimeoutMs clockMs : Int} {data : Members}

/-- `on_message` raises on the message: `json.loads` does, or the `int()` of a start does. -/
def RaisesOn (py : Builtins) (payload : Payload) (data : Members) : Prop :=
  payload.loads py = false ∨
    StartMessage py data ∧ ∃ value, data.lookup "timeout_ms" = some value ∧ py.int value = none

/-- An object on which `json.loads` raises leads to the error without an id, and one that it
returns is handled as one. -/
theorem onMessage_object {payload : Payload} (object : payload.object = some data) :
    (payload.loads py = false ∧
      onMessage py startTimeoutMs clockMs payload = .publish .internal) ∨
    onMessage py startTimeoutMs clockMs payload = onObject py startTimeoutMs clockMs data := by
  cases loads : payload.loads py with
  | false => exact .inl ⟨rfl, by simp [onMessage, object, loads]⟩
  | true => exact .inr (by simp [onMessage, object, loads])

/-- What `on_message` makes itself is an error with the id of the message, or the error without
an id of a message on which it raises. -/
theorem publish_of_onMessage {payload : Payload} (object : payload.object = some data)
    {event : CloudEvent}
    (same : onMessage py startTimeoutMs clockMs payload = .publish event) :
    (∃ message, event = .error (makeCmdId py clockMs data) message) ∨
      event = .internal ∧ RaisesOn py payload data := by
  obtain ⟨loads, fails⟩ | handled := onMessage_object object
  · rw [fails] at same
    cases same
    exact .inr ⟨rfl, .inl loads⟩
  rw [handled] at same
  obtain ⟨start, way⟩ | ⟨-, ⟨message, way⟩ | way | ⟨cmd, params, way⟩⟩ :=
    onObject_cases py startTimeoutMs clockMs data
  · rw [way, onStartMessage] at same
    split at same
    · contradiction
    · rename_i raises
      cases same
      exact .inr ⟨rfl, .inr ⟨start, (timeout_raises_iff py startTimeoutMs data).mp raises⟩⟩
  · rw [way] at same
    cases same
    exact .inl ⟨message, rfl⟩
  · rw [way] at same
    contradiction
  · rw [way] at same
    contradiction

/-- The `cmd_id` of a handler. -/
def CloudHandler.cmdId : CloudHandler → Text
  | .commandSync cmdId _ _ => cmdId
  | .stop cmdId => cmdId
  | .startAndPoll cmdId _ => cmdId

/-- A thread has the id of its message. -/
theorem cmdId_of_onMessage {payload : Payload} (object : payload.object = some data)
    {handler : CloudHandler}
    (same : onMessage py startTimeoutMs clockMs payload = .dispatch handler) :
    handler.cmdId = makeCmdId py clockMs data := by
  obtain ⟨-, fails⟩ | handled := onMessage_object object
  · rw [fails] at same
    contradiction
  rw [handled] at same
  obtain ⟨start, way⟩ | ⟨-, ⟨message, way⟩ | way | ⟨cmd, params, way⟩⟩ :=
    onObject_cases py startTimeoutMs clockMs data
  · rw [way, onStartMessage] at same
    split at same
    · cases same
      rfl
    · contradiction
  · rw [way] at same
    contradiction
  · rw [way] at same
    cases same
    rfl
  · rw [way] at same
    cases same
    rfl

end

/-- An event has one type. -/
theorem CloudEvent.Typed.unique {left right : String} {event : CloudEvent}
    (first : Typed left event) (second : Typed right event) : left = right := by
  have same := first.symm.trans second
  simpa using same

/-- The event of a call with one request is the last of its answer. -/
theorem SyncCall.event_spec (call : SyncCall) (result : Nat × Members) :
    Carries call.cmdId (call.event result) ∧ Final (call.event result) ∧
      ¬ Typed "job_accepted" (call.event result) := by
  cases call with
  | command cmdId cmd params =>
    have typed : Typed "command_ack" ((SyncCall.command cmdId cmd params).event result) := rfl
    exact ⟨rfl, ⟨_, by decide, typed⟩, fun other => absurd (typed.unique other) (by decide)⟩
  | stop cmdId =>
    have typed : Typed "stop_ack" ((SyncCall.stop cmdId).event result) := rfl
    exact ⟨rfl, ⟨_, by decide, typed⟩, fun other => absurd (typed.unique other) (by decide)⟩

/-- A published result carries the id of its call and is final. -/
theorem GatewayEvent.jobResult_spec (text : Bytes → String) (report : JobReport) :
    Carries report.id (GatewayEvent.toCloud text (.jobResult report)) ∧
      Final (GatewayEvent.toCloud text (.jobResult report)) := by
  obtain ⟨id, httpStatus, ok, jobId, status, message, state, qr⟩ := report
  cases httpStatus <;> exact ⟨rfl, "job_result", by decide, rfl⟩

/-- Some event announces a job. -/
def AnnouncesJob (events : List CloudEvent) : Prop :=
  ∃ event ∈ events, Typed "job_accepted" event

/-- One final event that announces no job is a whole answer. -/
theorem answers_final {cmdId : Text} {event : CloudEvent} (carries : Carries cmdId event)
    (final : Final event) (other : ¬ Typed "job_accepted" event) :
    Answers cmdId (AnnouncesJob [event]) [event] := by
  refine answers_single carries final ?_
  rintro ⟨announced, member, typed⟩
  rw [List.mem_singleton.mp member] at typed
  exact other typed

/-- A call that has returned has given its answer. -/
theorem StartAndPoll.Shape.answers {call : StartAndPoll} (shape : call.Shape)
    (returned : call.pc = .returned) (text : Bytes → String) :
    Answers call.id (AnnouncesJob (call.cloudEvents text)) (call.cloudEvents text) := by
  rw [StartAndPoll.Shape, returned] at shape
  obtain ⟨sc, message, rejected⟩ | ⟨jobId, state, message, report, both, own⟩ := shape
  · have events : call.cloudEvents text =
        [GatewayEvent.toCloud text (.jobRejected call.id sc message)] := by
      simp [cloudEvents, rejected]
    have typed : Typed "job_rejected"
        (GatewayEvent.toCloud text (.jobRejected call.id sc message)) := rfl
    rw [events]
    exact answers_final rfl ⟨_, by decide, typed⟩ fun other =>
      absurd (typed.unique other) (by decide)
  · have events : call.cloudEvents text =
        [GatewayEvent.toCloud text (.jobAccepted call.id 202 jobId state message),
          GatewayEvent.toCloud text (.jobResult report)] := by
      simp [cloudEvents, both]
    have typed : Typed "job_accepted"
        (GatewayEvent.toCloud text (.jobAccepted call.id 202 jobId state message)) := rfl
    obtain ⟨carries, final⟩ := GatewayEvent.jobResult_spec text report
    rw [own] at carries
    rw [events]
    refine ⟨fun event member => ?_,
      .inr ⟨⟨_, List.mem_cons_self, typed⟩, _, _, typed, final, rfl⟩⟩
    obtain rfl | rfl : event = GatewayEvent.toCloud text
        (.jobAccepted call.id 202 jobId state message) ∨
        event = GatewayEvent.toCloud text (.jobResult report) := by simpa using member
    · rfl
    · exact carries

/-- The events announce a job, and nothing more. -/
def OnlyAnnounce (cmdId : Text) (events : List CloudEvent) : Prop :=
  ∃ announced, Carries cmdId announced ∧ Typed "job_accepted" announced ∧ events = [announced]

/-- A call that has announced its job has announced it to the cloud. -/
theorem StartAndPoll.Announced.cloud {call : StartAndPoll} {jobId : String}
    (announced : call.Announced jobId) (text : Bytes → String) :
    OnlyAnnounce call.id (call.cloudEvents text) := by
  obtain ⟨state, message, published⟩ := announced
  exact ⟨GatewayEvent.toCloud text (.jobAccepted call.id 202 jobId state message), rfl, rfl,
    by simp [cloudEvents, published]⟩

/-- A call under way has published nothing but the announcement of its job. -/
theorem StartAndPoll.Shape.pending {call : StartAndPoll} (shape : call.Shape)
    (going : call.pc ≠ .returned) (text : Bytes → String) :
    call.cloudEvents text = [] ∨ OnlyAnnounce call.id (call.cloudEvents text) := by
  unfold StartAndPoll.Shape at shape
  split at shape
  · exact .inl (by simp [cloudEvents, shape])
  · exact .inl (by simp [cloudEvents, shape])
  · exact .inr (Announced.cloud shape text)
  · exact .inr (Announced.cloud shape text)
  · exact .inr (Announced.cloud shape text)
  · exact .inr (Announced.cloud shape text)
  · rename_i returned
    exact absurd returned going

/-- The event would go on with the answer: it is the first one, or the last behind the
announcement. -/
def GoesOnWith (cmdId : Text) (events : List CloudEvent) (event : CloudEvent) : Prop :=
  Carries cmdId event ∧ (events = [] ∧ (Final event ∨ Typed "job_accepted" event) ∨
    OnlyAnnounce cmdId events ∧ Final event)

/-- What a call may publish next would go on with its answer. -/
theorem StartAndPoll.MayPublish.goesOn {call : StartAndPoll} {made : GatewayEvent}
    (may : call.MayPublish made) (text : Bytes → String) :
    GoesOnWith call.id (call.cloudEvents text) (made.toCloud text) := by
  obtain ⟨silent, ⟨sc, message, rfl⟩ | ⟨jobId, state, message, rfl⟩⟩ |
    ⟨⟨jobId, announced⟩, report, own, rfl⟩ := may
  · exact ⟨rfl, .inl ⟨by simp [cloudEvents, silent], .inl ⟨"job_rejected", by decide, rfl⟩⟩⟩
  · exact ⟨rfl, .inl ⟨by simp [cloudEvents, silent], .inr rfl⟩⟩
  · obtain ⟨carries, final⟩ := GatewayEvent.jobResult_spec text report
    rw [own] at carries
    exact ⟨carries, .inr ⟨announced.cloud text, final⟩⟩

/-- The conversation is under way, with at most a job announced, or it has ended: with its whole
answer; with the error without an id, because `on_message` raised on the message or on the error
it made for it; or before an event of its answer, on which `publish_event` raised. -/
def Talk.Told (site : Site) (data : Members) (talk : Talk) : Prop :=
  let cmdId := makeCmdId site.py talk.clockMs data
  let published := talk.thread.published site
  if talk.thread.returned then
    Answers cmdId (AnnouncesJob published) published ∨
    (published = [.internal] ∧ (RaisesOn site.py talk.payload data ∨
      ∃ message, talk.thread = .refused (.error cmdId message) ∧
        site.py.publishes (.error cmdId message) = false)) ∨
    ∃ event, talk.raised = some event ∧ site.py.publishes event = false ∧
      GoesOnWith cmdId published event
  else published = [] ∨ OnlyAnnounce cmdId published

/-- What `on_message` says itself. -/
theorem Talk.told_refused {site : Site} {talk : Talk} {event : CloudEvent} {data : Members}
    (object : talk.payload.object = some data) (thread : talk.thread = .refused event)
    (origin : TalkThread.reaction (.refused event) =
      onMessage site.py site.startTimeoutMs talk.clockMs talk.payload) :
    talk.Told site data := by
  unfold Talk.Told
  rw [thread]
  obtain ⟨message, rfl⟩ | ⟨rfl, raises⟩ := publish_of_onMessage object origin.symm
  · have typed : Typed "error" (.error (makeCmdId site.py talk.clockMs data) message) := rfl
    cases can : site.py.publishes (.error (makeCmdId site.py talk.clockMs data) message) with
    | true =>
      refine .inl ?_
      simp only [TalkThread.published, orInternal, can, if_true]
      exact answers_final rfl ⟨_, by decide, typed⟩ fun other =>
        absurd (typed.unique other) (by decide)
    | false =>
      refine .inr (.inl ⟨?_, .inr ⟨message, rfl, can⟩⟩)
      simp [TalkThread.published, orInternal, can]
  · refine .inr (.inl ⟨?_, .inl raises⟩)
    simp [TalkThread.published, orInternal, site.py.publishes_internal]

/-- An ordered conversation about an object is told so. -/
theorem Talk.Orderly.told {site : Site} {talk : Talk} (orderly : talk.Orderly site)
    {data : Members} (object : talk.payload.object = some data) : talk.Told site data := by
  obtain ⟨origin, shape⟩ := orderly
  cases thread : talk.thread with
  | refused event =>
    rw [thread] at origin
    exact Talk.told_refused object thread origin
  | sync call pc =>
    rw [thread] at origin shape
    have id : call.cmdId = makeCmdId site.py talk.clockMs data := by
      rw [← cmdId_of_onMessage object origin.symm]
      cases call <;> rfl
    unfold Talk.Told
    rw [thread]
    cases pc with
    | posting => exact .inl rfl
    | waiting h => exact .inl rfl
    | returned event =>
      cases raised : talk.raised with
      | none =>
        rw [raised] at shape
        obtain ⟨result, rfl⟩ := shape
        obtain ⟨carries, final, other⟩ := call.event_spec result
        rw [id] at carries
        exact .inl (answers_final carries final other)
      | some other =>
        rw [raised] at shape
        exact shape.2.elim
    | raised =>
      cases raised : talk.raised with
      | none =>
        rw [raised] at shape
        exact shape.elim
      | some event =>
        rw [raised] at shape
        obtain ⟨cannot, result, rfl⟩ := shape
        obtain ⟨carries, final, -⟩ := call.event_spec result
        rw [id] at carries
        exact .inr (.inr ⟨_, rfl, cannot, carries, .inl ⟨rfl, .inl final⟩⟩)
  | start call =>
    rw [thread] at origin shape
    have id : call.id = makeCmdId site.py talk.clockMs data :=
      cmdId_of_onMessage object origin.symm
    unfold Talk.Told
    rw [thread]
    cases raised : talk.raised with
    | none =>
      rw [raised] at shape
      have own : call.Shape := shape
      by_cases returned : call.pc = .returned
      · simp only [TalkThread.returned, returned, decide_true, if_true, ← id]
        exact .inl (own.answers returned site.text)
      · simp only [TalkThread.returned, returned, decide_false, ← id]
        exact own.pending returned site.text
    | some event =>
      rw [raised] at shape
      obtain ⟨cannot, returned, made, may, rfl⟩ := shape
      simp only [TalkThread.returned, returned, decide_true, if_true, ← id]
      exact .inr (.inr ⟨_, rfl, cannot, may.goesOn site.text⟩)

/-! ## Nothing is taken back -/

namespace StartAndPoll

variable {call : StartAndPoll}

/-- After `http_post` one event more is published. -/
theorem prefix_onStart (sc : Nat) (j : Body) :
    call.published <+: (call.onStart sc j).published := by
  unfold onStart
  split <;> exact List.prefix_append _ _

/-- After `http_get` one event more or none. -/
theorem prefix_onPoll (jobId : String) (deadline : Int) (gsc : Nat) (gj : Body) :
    call.published <+: (call.onPoll jobId deadline gsc gj).published := by
  obtain same | ⟨status, -, -, -, same⟩ := call.onPoll_cases jobId deadline gsc gj
  · exact ⟨[], by simp [same]⟩
  · rw [same]
    exact List.prefix_append _ _

/-- So at the loop condition. -/
theorem prefix_onTime (jobId : String) (deadline now : Int) :
    call.published <+: (call.onTime jobId deadline now).published := by
  unfold onTime
  split
  · exact List.prefix_rfl
  · exact List.prefix_append _ _

end StartAndPoll

/-- What the polling call has published stays published. -/
theorem Bridge.prefix_step {b next : Bridge} {event : BridgeEvent}
    (taken : b.step event = some next) : b.call.published <+: next.call.published := by
  cases step_move taken with
  | service moved | post here moved | get here moved | date now here => exact List.prefix_rfl
  | loseStart here => exact StartAndPoll.prefix_onStart _ _
  | answerStart readable here found => exact StartAndPoll.prefix_onStart _ _
  | losePoll here => exact StartAndPoll.prefix_onPoll _ _ _ _
  | answerPoll readable here found => exact StartAndPoll.prefix_onPoll _ _ _ _
  | check now here => exact StartAndPoll.prefix_onTime _ _ _

namespace Edge

variable {site : Site} {e next : Edge} {event : EdgeEvent} {events : List EdgeEvent} {m : Nat}
  {talk : Talk}

end Edge

/-! ## Coming to an end -/

/-- How far a polling call is from its end, if its requests raise and its deadline passes. -/
def PollPc.rank : PollPc → Nat
  | .returned => 0
  | .posting => 1
  | .starting _ => 1
  | .head _ _ => 1
  | .dating _ => 2
  | .getting _ _ => 2
  | .waiting _ _ _ => 2

/-- How far a thread is from its end. -/
def TalkThread.rank : TalkThread → Nat
  | .refused _ => 0
  | .sync _ (.returned _) => 0
  | .sync _ .raised => 0
  | .sync _ _ => 1
  | .start call => call.pc.rank

namespace Edge

variable {site : Site} {e next : Edge} {event : EdgeEvent} {events : List EdgeEvent} {m : Nat}
  {talk : Talk}

end Edge

/-! ## Every message -/

/-- The message a step brings, with its time. -/
def EdgeEvent.received : EdgeEvent → Option (Payload × Int)
  | .message payload clockMs => some (payload, clockMs)
  | _ => none

namespace Edge

variable {site : Site} {e next : Edge} {event : EdgeEvent} {events : List EdgeEvent}

/-- A gateway on plain texts. -/
def plainSite : Site :=
  { py := plainPython, crow := .yielding 0, text := fun _ => "" }

end Edge

end QrEdgeGateway
