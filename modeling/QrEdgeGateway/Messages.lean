import QrEdgeGateway.Gateway
import QrEdgeGateway.Requests

/-!
# Cloud messages

`on_message` of gateway-py takes one message from the cloud, validates it and either publishes an
error or starts a thread, which makes one request to the service, or one and a polling loop, and
publishes the answer. Here the gateway stands alone: what its requests return and what the clock
shows are arbitrary, and bodies are any JSON objects.

A JSON text is the value it stands for. Two calls may raise on it: `json.loads`, beyond the limits
of the interpreter, and `publish_event`, where a text of the event has no UTF-8 or the client does
not take it. What `str`, `strip`, `lower`, `upper` and `int` do to a text is Python's and left
open. Starting a thread does not fail. Times are in nanoseconds.
-/

namespace QrEdgeGateway

/-! ## JSON in Python -/

/-- A JSON value as `json.loads` returns it. A number written without fraction and exponent is an
`int` of any size, any other a `float`. -/
inductive Value where
  /-- `None`. -/
  | none
  /-- `True` or `False`. -/
  | bool (b : Bool)
  /-- An `int`. -/
  | int (n : Int)
  /-- A `float`. -/
  | float (d : Double)
  /-- A `str`. -/
  | str (s : Text)
  /-- A `list`. -/
  | list (items : List Value)
  /-- A `dict`. -/
  | dict (members : List (Text × Value))

/-- The members of a `dict`. -/
abbrev Members := List (Text × Value)

/-- The member `members[key]`, if there is one. -/
abbrev Members.lookup (members : Members) (key : Text) : Option Value := List.lookup key members

/-- `members.get(key, default)`. -/
def Members.get (members : Members) (key : Text) (default : Value) : Value :=
  (members.lookup key).getD default

/-- A member that may be missing. -/
def Members.optional (key : Text) : Option Value → Members
  | some value => [(key, value)]
  | none => []

mutual

/-- Every text of the value has UTF-8. -/
def Value.encodable : Value → Bool
  | .str s => s.encodable
  | .list items => itemsEncodable items
  | .dict members => membersEncodable members
  | _ => true

/-- Every text of the items has UTF-8. -/
def itemsEncodable : List Value → Bool
  | [] => true
  | item :: rest => item.encodable && itemsEncodable rest

/-- Every text of the members has UTF-8, the keys among them. -/
def membersEncodable : List (Text × Value) → Bool
  | [] => true
  | (key, value) :: rest => key.encodable && value.encodable && membersEncodable rest

end

/-- What `isinstance(value, int)` admits, as an integer: in Python a `bool` is an `int`. -/
def Value.asInt : Value → Option Int
  | .int n => some n
  | .bool b => some b.toNat
  | _ => Option.none

/-- The `dict` handed to `publish_event`. -/
abbrev CloudEvent := Members

/-- The event of the `except` clause of `on_message`. -/
def CloudEvent.internal : CloudEvent :=
  [("type", .str "error"), ("message", .str "ERR:INTERNAL")]

/-- What the gateway takes from Python and from the MQTT client. -/
structure Builtins where
  /-- `str` of a value that is no `str`; it escapes what cannot be printed. -/
  render : Value → String
  /-- `str.strip`. -/
  strip : Text → Text
  /-- `str.lower`. -/
  lower : Text → Text
  /-- `str.upper`. -/
  upper : Text → Text
  /-- `int` of a `str`; `none` where it raises. -/
  intOfStr : Text → Option Int
  /-- `json.loads` returns on a text with this value, and `str` on its members. They raise if an
  integer has too many digits or values are nested too deeply. -/
  loads : Value → Bool
  /-- `json.dumps` stays within the same limits, and the client takes the event: its text is
  268435455 bytes long at most. -/
  takes : CloudEvent → Bool
  /-- The error without an id is short. -/
  takesInternal : takes .internal = true

namespace Builtins

variable (py : Builtins)

/-- `str(value)`. -/
def str : Value → Text
  | .str s => s
  | value => py.render value

/-- `int(value)`; `none` where it raises. -/
def int : Value → Option Int
  | .int n => some n
  | .bool b => some b.toNat
  | .float (.finite value) => some (if value < 0 then value.ceil else value.floor)
  | .str s => py.intOfStr s
  | _ => Option.none

/-- `publish_event` does not raise: `json.dumps` leaves every character as it is, so the client has
to find the UTF-8 of each of them, and it takes the text. -/
def publishes (event : CloudEvent) : Bool := membersEncodable event && py.takes event

/-- The error without an id can be published. -/
theorem publishes_internal : py.publishes .internal = true := by
  rw [publishes, py.takesInternal]
  rfl

end Builtins

/-! ## Validation -/

/-- `BAUD_MIN`. -/
def baudMin : Int := 1

/-- `BAUD_MAX`. -/
def baudMax : Int := 2000000

/-- The check of one member of `params`, if it is present. -/
def validateField (params : Members) (key : Text) (outside : Int → Bool) : Option String :=
  match params.lookup key with
  | none => Option.none
  | some value =>
    match value.asInt with
    | none => some "ERR:BAD_REQUEST"
    | some n => if outside n then some "ERR:BAD_REQUEST" else Option.none

/-- `validate_params`: the error, if there is one. -/
def validateParams (params : Option Members) : Option String :=
  match params with
  | none => Option.none
  | some params =>
    (validateField params "baudrate" fun br => br < baudMin ∨ br > baudMax).or
      (validateField params "timeout_ms" fun tmo => tmo ≤ 0)

/-! ## Requests and their outcomes -/

/-- What a request comes to. -/
inductive HttpOutcome where
  /-- It raises: no connection, or no answer in time. -/
  | raised
  /-- It is answered. The body is an object, or `none` if it is missing or cannot be parsed. -/
  | answered (statusCode : Nat) (body : Option Members)

/-- What `http_post` and `http_get` return, with `safe_json` on the body. -/
def HttpOutcome.result : HttpOutcome → Nat × Members
  | .raised => (0, [("ok", .bool false), ("message", .str "ERR:HTTP")])
  | .answered statusCode body => (statusCode, body.getD [])

/-- The body of the request to `/command`. -/
def commandBody (cmd : Text) (params : Option Members) : Members :=
  ("command", .str cmd) :: Members.optional "params" (params.map .dict)

/-- The body of the request to `/start`. -/
def startBody (timeoutMs : Int) : Members := [("timeout_ms", .int timeoutMs)]

/-! ## Events -/

namespace CloudEvent

/-- An `error` event of `on_message`. -/
def error (cmdId : Text) (message : String) : CloudEvent :=
  [("id", .str cmdId), ("type", .str "error"), ("message", .str message)]

/-- The event of `handle_command_sync`. -/
def commandAck (cmdId cmd : Text) (sc : Nat) (j : Members) : CloudEvent :=
  [("id", .str cmdId), ("type", .str "command_ack"), ("http_status", .int sc),
    ("ok", j.get "ok" (.bool false)), ("command", j.get "command" (.str cmd)),
    ("state", j.get "state" .none), ("message", j.get "message" (.str "ERR")),
    ("data", j.get "data" (.dict []))]

/-- The event of `handle_stop`. -/
def stopAck (cmdId : Text) (sc : Nat) (j : Members) : CloudEvent :=
  [("id", .str cmdId), ("type", .str "stop_ack"), ("http_status", .int sc),
    ("ok", j.get "ok" (.bool false)), ("state", j.get "state" .none),
    ("message", j.get "message" (.str "ERR"))]

/-- The event of a start that is not answered 202. -/
def jobRejected (cmdId : Text) (sc : Nat) (j : Members) : CloudEvent :=
  [("id", .str cmdId), ("type", .str "job_rejected"), ("http_status", .int sc),
    ("ok", .bool false), ("message", j.get "message" (.str "ERR"))]

/-- The event of a start that is answered 202. -/
def jobAccepted (cmdId : Text) (sc : Nat) (j : Members) : CloudEvent :=
  [("id", .str cmdId), ("type", .str "job_accepted"), ("http_status", .int sc),
    ("ok", .bool true), ("jobId", j.get "jobId" (.str "")), ("state", j.get "state" .none),
    ("message", j.get "message" .none)]

/-- The member `qr` of a result: present when `data` is an object that has one. -/
def qrMember (gj : Members) : Members :=
  match gj.get "data" .none with
  | .dict data => Members.optional "qr" (Members.lookup data "qr")
  | _ => []

/-- The event of a poll that tells the end of the job; `none` if it does not. -/
def jobResult (cmdId : Text) (jobId : Value) (gsc : Nat) (gj : Members) : Option CloudEvent :=
  if gsc = 200 then
    match gj.lookup "status" with
    | some (.str status) =>
      if status ∈ (["DONE", "TIMEOUT", "CANCELLED"] : List Text) then
        let event : CloudEvent :=
          [("id", .str cmdId), ("type", .str "job_result"), ("http_status", .int gsc),
            ("ok", .bool true), ("jobId", jobId), ("status", .str status),
            ("message", gj.get "message" .none), ("state", gj.get "state" .none)]
        some (event ++ qrMember gj)
      else Option.none
    | _ => Option.none
  else Option.none

/-- The event behind the polling loop. -/
def pollTimeout (cmdId : Text) (jobId : Value) : CloudEvent :=
  [("id", .str cmdId), ("type", .str "job_result"), ("ok", .bool false), ("jobId", jobId),
    ("status", .str "TIMEOUT"), ("message", .str "ERR:POLL_TIMEOUT")]

end CloudEvent

/-! ## CloudHandler threads -/

/-- A handler with its arguments. -/
inductive CloudHandler where
  /-- `handle_command_sync`. -/
  | commandSync (cmdId cmd : Text) (params : Option Members)
  /-- `handle_stop`. -/
  | stop (cmdId : Text)
  /-- `handle_start_and_poll`. -/
  | startAndPoll (cmdId : Text) (timeoutMs : Int)

/-- The first request of a handler: path and body. -/
def CloudHandler.request : CloudHandler → String × Members
  | .commandSync _ cmd params => ("/command", commandBody cmd params)
  | .stop _ => ("/stop", [])
  | .startAndPoll _ timeoutMs => ("/start", startBody timeoutMs)

/-- What a handler thread meets: its requests and the clock. The `k`-th round of the polling loop
reads the clock and, before the deadline, makes the `k`-th poll. -/
structure Surroundings where
  /-- The outcome of its first request. -/
  post : HttpOutcome
  /-- The clock when the deadline is set. -/
  dated : Int
  /-- The clock in each round. -/
  now : Nat → Int
  /-- The outcome of each poll. -/
  polls : Nat → HttpOutcome

/-- The polling loop from the round `k`; `none` is a loop that has not ended within its fuel. -/
def pollLoop (cmdId : Text) (jobId : Value) (deadline : Int) (around : Surroundings) :
    Nat → Nat → Option CloudEvent
  | 0, _ => none
  | fuel + 1, k =>
    if around.now k < deadline then
      let (gsc, gj) := (around.polls k).result
      match CloudEvent.jobResult cmdId jobId gsc gj with
      | some event => some event
      | none => pollLoop cmdId jobId deadline around fuel (k + 1)
    else some (CloudEvent.pollTimeout cmdId jobId)

/-- What a handler publishes until its thread ends, if `can` tells the events that can be
published: a `publish_event` that raises ends the thread. `pollMax` is `POLL_MAX_SECONDS`. -/
def CloudHandler.publishes (can : CloudEvent → Bool) (pollMax : Int) (around : Surroundings)
    (fuel : Nat) : CloudHandler → Option (List CloudEvent)
  | .commandSync cmdId cmd _ =>
    some ([.commandAck cmdId cmd around.post.result.1 around.post.result.2].filter can)
  | .stop cmdId => some ([.stopAck cmdId around.post.result.1 around.post.result.2].filter can)
  | .startAndPoll cmdId _ =>
    let (sc, j) := around.post.result
    if sc ≠ 202 then some ([.jobRejected cmdId sc j].filter can)
    else if can (.jobAccepted cmdId sc j) then
      (pollLoop cmdId (j.get "jobId" (.str "")) (around.dated + pollMax) around fuel 0).map
        fun event => .jobAccepted cmdId sc j :: [event].filter can
    else some []

/-! ## Messages -/

/-- The payload of a message, as a text. -/
inductive Payload where
  /-- The empty text. -/
  | empty
  /-- A JSON text, with the value it stands for. -/
  | json (document : Value)
  /-- Any other text. -/
  | malformed

/-- The object a payload stands for: nothing stands for `{}`. -/
def Payload.object : Payload → Option Members
  | .empty => some []
  | .json (.dict data) => some data
  | _ => none

/-- `json.loads(payload) if payload else {}` returns. -/
def Payload.loads (py : Builtins) : Payload → Bool
  | .empty => true
  | .json document => py.loads document
  | .malformed => false

/-- What `on_message` does with a message. -/
inductive Reaction where
  /-- It makes an event itself. -/
  | publish (event : CloudEvent)
  /-- It starts a handler thread. -/
  | dispatch (handler : CloudHandler)

section

variable (py : Builtins)

/-- `normalize_cmd`. -/
def normalizeCmd (cmd : Text) : Text := py.upper (py.strip cmd)

/-- `make_cmd_id`; `clockMs` is the `int(time.time() * 1000)` of a message without an id. -/
def makeCmdId (clockMs : Int) (data : Members) : Text :=
  let cid := py.strip (py.str (data.get "id" (.str "")))
  if cid ≠ "" then cid else ("cmd-" ++ toString clockMs : String)

/-- `msg_type`. -/
def messageType (data : Members) : Text :=
  py.lower (py.strip (py.str (data.get "type" (.str "command"))))

/-- `cmd`. -/
def messageCommand (data : Members) : Text :=
  normalizeCmd py (py.str (data.get "command" (.str "")))

/-- The `params` of a command message; `none` if they are no object. -/
def messageParams (data : Members) : Option (Option Members) :=
  match data.get "params" .none with
  | .none => some Option.none
  | .dict params => some (some params)
  | _ => Option.none

/-- The way of both start messages: an `int()` that may raise, then the thread.
`startTimeoutMs` is `QR_START_TIMEOUT_MS`. -/
def onStartMessage (startTimeoutMs : Int) (cmdId : Text) (data : Members) : Reaction :=
  match py.int (data.get "timeout_ms" (.int startTimeoutMs)) with
  | some timeoutMs => .dispatch (.startAndPoll cmdId timeoutMs)
  | none => .publish .internal

/-- The branch of `on_message` for commands. -/
def onCommand (startTimeoutMs : Int) (cmdId : Text) (data : Members) : Reaction :=
  let cmd := messageCommand py data
  if cmd = "" then .publish (.error cmdId "ERR:BAD_REQUEST")
  else match messageParams data with
    | none => .publish (.error cmdId "ERR:BAD_REQUEST")
    | some params =>
      match validateParams params with
      | some err => .publish (.error cmdId err)
      | none =>
        if cmd = "START" then onStartMessage py startTimeoutMs cmdId data
        else if cmd = "STOP" then .dispatch (.stop cmdId)
        else .dispatch (.commandSync cmdId cmd params)

/-- `on_message` behind `json.loads`. -/
def onObject (startTimeoutMs clockMs : Int) (data : Members) : Reaction :=
  let msgType := messageType py data
  let cmdId := makeCmdId py clockMs data
  if msgType = "command" then onCommand py startTimeoutMs cmdId data
  else if msgType = "start" then onStartMessage py startTimeoutMs cmdId data
  else if msgType = "stop" then .dispatch (.stop cmdId)
  else .publish (.error cmdId "ERR:UNKNOWN_MESSAGE_TYPE")

/-- `on_message`. A value without `get` raises before its id is made, as `json.loads` does. -/
def onMessage (startTimeoutMs clockMs : Int) (payload : Payload) : Reaction :=
  match payload.object with
  | some data =>
    if payload.loads py then onObject py startTimeoutMs clockMs data else .publish .internal
  | none => .publish .internal

end

/-- What `on_message` publishes for an event it makes: where that raises, the `except` clause
publishes the error without an id. -/
def CloudEvent.orInternal (can : CloudEvent → Bool) (event : CloudEvent) : CloudEvent :=
  if can event then event else .internal

/-- What a message leads to, with the handler thread it may start. -/
def Reaction.publishes (can : CloudEvent → Bool) (pollMax : Int) (around : Surroundings)
    (fuel : Nat) : Reaction → Option (List CloudEvent)
  | .publish event => some [event.orInternal can]
  | .dispatch handler => handler.publishes can pollMax around fuel

/-! ## The service's view of the same values -/

/-- A text of ASCII characters. -/
def Text.ascii : Text → Bool
  | .unicode s => s.toList.all fun c => c.toNat < 128
  | .lone _ => false

/-- What Crow makes of the text that `requests` writes: of a number, beside its value, `i()` and
the result of a conversion out of the range of `long long`; and of a string. -/
structure CrowReading where
  /-- `rvalue::i()`. -/
  i : Double → Int
  /-- `rvalue::i()` returns an `int64_t`. -/
  inRange : ∀ d, -9223372036854775808 ≤ i d ∧ i d ≤ 9223372036854775807
  /-- What an undefined conversion yields. -/
  wild : Double → Int
  /-- A string. Other characters than ASCII are written as escapes of 16 bits, and Crow takes each
  escape for a character of its own. -/
  spell : Text → String
  /-- ASCII arrives as it is. -/
  plain : ∀ s : String, Text.ascii s = true → spell s = s
  /-- Nothing else arrives as ASCII. -/
  foreign : ∀ text : Text, text.ascii = false → Text.ascii (spell text) = false

/-- A number with `d()` its exact value. -/
def CrowReading.read (crow : CrowReading) (d : Double) : JsonNumber :=
  ⟨d, crow.i d, crow.inRange d, crow.wild d⟩

mutual

/-- A value as the service parses its text. -/
def Value.toJson (crow : CrowReading) : Value → Json
  | .int n => .number (crow.read (.finite n))
  | .float d => .number (crow.read d)
  | .str s => .string (crow.spell s)
  | .dict members => .object (membersToJson crow members)
  | _ => .other

/-- Members as the service parses their text. -/
def membersToJson (crow : CrowReading) : List (Text × Value) → List (String × Json)
  | [] => []
  | (key, value) :: rest => (crow.spell key, value.toJson crow) :: membersToJson crow rest

end

/-- A text arrives as an ASCII one exactly if it is that one. -/
theorem CrowReading.spell_eq_iff (crow : CrowReading) (text : Text) {s : String}
    (plain : Text.ascii s = true) : crow.spell text = s ↔ text = s := by
  constructor
  · intro same
    cases ascii : text.ascii with
    | false =>
      have foreign := crow.foreign text ascii
      rw [same, plain] at foreign
      contradiction
    | true =>
      cases text with
      | unicode other =>
        rw [crow.plain other ascii] at same
        rw [same]
      | lone text => contradiction
  · intro same
    rw [same, crow.plain s plain]

/-- A lookup before and after the parse. -/
theorem lookup_membersToJson (crow : CrowReading) (members : Members) {key : String}
    (plain : Text.ascii key = true) :
    (membersToJson crow members).lookup key =
      (members.lookup key).map fun value => value.toJson crow := by
  induction members with
  | nil => rfl
  | cons entry rest ih =>
    obtain ⟨name, value⟩ := entry
    unfold membersToJson
    have spelt := crow.spell_eq_iff name plain
    by_cases same : name = key
    · rw [spelt.mpr same, same]
      simp
    · have other : (key == crow.spell name) = false :=
        beq_false_of_ne fun found => same (spelt.mp found.symm)
      have differs : ((key : Text) == name) = false :=
        beq_false_of_ne fun found => same found.symm
      simpa [List.lookup_cons, other, differs] using ih

/-- The body of a handler's first request, as the service parses it. -/
def CloudHandler.forwarded (handler : CloudHandler) (crow : CrowReading) : Json :=
  (Value.dict handler.request.2).toJson crow

/-- The request that the polling call hands over is that of a body with its `timeout_ms`. -/
theorem startRequest_eq (defaultTimeoutMs : Int) (n : JsonNumber) :
    startRequest n.i =
      startJobRequest defaultTimeoutMs (some (.object [("timeout_ms", .number n)])) :=
  rfl

/-- The service takes the body of the gateway's start for that request. -/
theorem startJobRequest_forwarded (crow : CrowReading) (cmdId : Text)
    (defaultTimeoutMs timeoutMs : Int) (exact : crow.i (.finite timeoutMs) = timeoutMs) :
    startJobRequest defaultTimeoutMs
      (some ((CloudHandler.startAndPoll cmdId timeoutMs).forwarded crow)) =
      startRequest timeoutMs := by
  have body : (CloudHandler.startAndPoll cmdId timeoutMs).forwarded crow =
      .object [("timeout_ms", .number (crow.read (.finite timeoutMs)))] := by
    have key : crow.spell "timeout_ms" = "timeout_ms" := crow.plain _ (by decide)
    simp [CloudHandler.forwarded, CloudHandler.request, startBody, Value.toJson, membersToJson, key]
  have read : (crow.read (.finite timeoutMs)).i = timeoutMs := exact
  rw [body, ← startRequest_eq, read]

/-! ## The polling call beside the service

`StartAndPoll` is the same handler for the bodies the service sends; `text` shows the bytes of a
QR payload as a text. Each of its steps publishes what the handler publishes here. -/

section

variable (text : Bytes → String)

/-- The body as the JSON object it stands for. -/
def Body.members (body : Body) : Members :=
  Members.optional "message" (body.message.map fun message => .str message) ++
    Members.optional "jobId" (body.jobId.map fun jobId => .str jobId) ++
    Members.optional "state" (body.state.map fun state => .str state.toString) ++
    Members.optional "status" (body.status.map fun status => .str status.toString) ++
    Members.optional "data" (body.qr.map fun qr => .dict [("qr", .str (text qr))])

/-- A text that may be missing. -/
def Value.ofText (text : Option String) : Value := (text.map fun text => Value.str text).getD .none

/-- The event as the `dict` it is published as. -/
def GatewayEvent.toCloud : GatewayEvent → CloudEvent
  | .jobRejected id httpStatus message =>
    [("id", .str id), ("type", .str "job_rejected"), ("http_status", .int httpStatus),
      ("ok", .bool false), ("message", .str message)]
  | .jobAccepted id httpStatus jobId state message =>
    [("id", .str id), ("type", .str "job_accepted"), ("http_status", .int httpStatus),
      ("ok", .bool true), ("jobId", .str jobId), ("state", .ofText (state.map State.toString)),
      ("message", .ofText message)]
  | .jobResult report =>
    match report.httpStatus with
    | some httpStatus =>
      let event : CloudEvent :=
        [("id", .str report.id), ("type", .str "job_result"), ("http_status", .int httpStatus),
          ("ok", .bool report.ok), ("jobId", .str report.jobId),
          ("status", .str report.status.toString), ("message", .ofText report.message),
          ("state", .ofText (report.state.map State.toString))]
      event ++ Members.optional "qr" (report.qr.map fun qr => .str (text qr))
    | none =>
      [("id", .str report.id), ("type", .str "job_result"), ("ok", .bool report.ok),
        ("jobId", .str report.jobId), ("status", .str report.status.toString),
        ("message", .ofText report.message)]

/-- The members of a body are its fields. -/
theorem Body.lookup_members (body : Body) :
    Members.lookup (body.members text) "message" = body.message.map (fun message => .str message) ∧
    Members.lookup (body.members text) "jobId" = body.jobId.map (fun jobId => .str jobId) ∧
    Members.lookup (body.members text) "state" =
      body.state.map (fun state => .str state.toString) ∧
    Members.lookup (body.members text) "status" =
      body.status.map (fun status => .str status.toString) ∧
    Members.lookup (body.members text) "data" =
      body.qr.map fun qr => .dict [("qr", .str (text qr))] := by
  obtain ⟨message, jobId, state, status, qr⟩ := body
  refine ⟨?_, ?_, ?_, ?_, ?_⟩ <;>
    cases message <;> cases jobId <;> cases state <;> cases status <;> cases qr <;> rfl

namespace StartAndPoll

variable (call : StartAndPoll)

/-- The events of the call so far, as they are published. -/
def cloudEvents : List CloudEvent := call.published.map (GatewayEvent.toCloud text)

/-- One more event. -/
theorem cloudEvents_publish (event : GatewayEvent) (pc : PollPc) :
    (call.publish event pc).cloudEvents text = call.cloudEvents text ++ [event.toCloud text] := by
  simp [cloudEvents, publish]

/-- After `http_post` both publish the same. -/
theorem cloudEvents_onStart (sc : Nat) (j : Body) :
    (call.onStart sc j).cloudEvents text = call.cloudEvents text ++
      [if sc ≠ 202 then .jobRejected call.id sc (j.members text)
        else .jobAccepted call.id sc (j.members text)] := by
  obtain ⟨message, jobId, state, -, -⟩ := j.lookup_members text
  unfold onStart
  split
  · rw [cloudEvents_publish]
    simp only [GatewayEvent.toCloud, CloudEvent.jobRejected, Members.get, message]
    cases j.message <;> rfl
  · rw [cloudEvents_publish]
    simp only [GatewayEvent.toCloud, CloudEvent.jobAccepted, Members.get, message, jobId, state]
    cases j.jobId <;> cases j.state <;> cases j.message <;> rfl

/-- After `http_get` both publish the same, or both go round the loop. -/
theorem cloudEvents_onPoll (jobId : String) (deadline : Int) (gsc : Nat) (gj : Body) :
    (call.onPoll jobId deadline gsc gj).cloudEvents text = call.cloudEvents text ++
      (CloudEvent.jobResult call.id (.str jobId) gsc (gj.members text)).toList := by
  obtain ⟨message, -, state, status, data⟩ := gj.lookup_members text
  have shown : CloudEvent.qrMember (gj.members text) =
      Members.optional "qr" (gj.qr.map fun qr => .str (text qr)) := by
    rw [CloudEvent.qrMember, Members.get, data]
    cases gj.qr <;> rfl
  have ends : ∀ status : JobStatus,
      (status.toString : Text) ∈ (["DONE", "TIMEOUT", "CANCELLED"] : List Text) ↔
        status.Terminal := by
    intro status
    cases status <;> decide
  have round : ({ call with pc := .head jobId deadline } : StartAndPoll).cloudEvents text =
      call.cloudEvents text := rfl
  unfold onPoll CloudEvent.jobResult
  cases told : gj.status with
  | none => simp [status, told, round]
  | some told' =>
    by_cases found : gsc = 200
    · by_cases terminal : told'.Terminal
      · simp only [status, told, found, terminal, and_self, if_true, Option.map_some, ends,
          cloudEvents_publish, shown, GatewayEvent.toCloud, Members.get, message, state]
        cases gj.message <;> cases gj.state <;> rfl
      · simp [status, told, found, terminal, ends, round]
    · simp [found, round]

/-- At the loop condition both publish the same. -/
theorem cloudEvents_onTime (jobId : String) (deadline now : Int) :
    (call.onTime jobId deadline now).cloudEvents text = call.cloudEvents text ++
      if now < deadline then [] else [.pollTimeout call.id (.str jobId)] := by
  unfold onTime
  split
  · simp [cloudEvents]
  · exact call.cloudEvents_publish text _ _

end StartAndPoll

end

end QrEdgeGateway
