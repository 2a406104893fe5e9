import QrEdgeGateway.Verif.Conversations
import QrEdgeGateway.Verif.PollOutcome
import QrEdgeGateway.Verif.ThreadHandle

/-!
# What the cloud is told comes from the service

The first request of a conversation is served by one handler, which serves no other conversation,
and the event that acknowledges it says what that handler answered, unless the request raised.
-/

namespace QrEdgeGateway

namespace World

variable {w next : World} {event : Event} {h i : Nat} {request asker : Request} {reply : Reply}
  {pc pc' : RestPc}

/-- A handler that has answered is not the one that moves. -/
theorem answered_set (there : w.handlers[h]? = some ⟨request, .answered reply⟩)
    (here : w.handlers[i]? = some ⟨asker, pc⟩) (going : ∀ reply, pc ≠ .answered reply) :
    (w.handlers.set i ⟨asker, pc'⟩)[h]? = some ⟨request, .answered reply⟩ := by
  have other : h ≠ i := by
    rintro rfl
    cases Option.some.inj (there.symm.trans here)
    exact going reply rfl
  exact (Table.get_set_other other).trans there

/-- An answer is final. -/
theorem answered_step (there : w.handlers[h]? = some ⟨request, .answered reply⟩)
    (taken : w.step event = some next) :
    next.handlers[h]? = some ⟨request, .answered reply⟩ := by
  cases (step_move taken).2 with
  | arrive request => exact Table.get_spawn_old there
  | terminate here same | work found agrees moved | write found moved written
  | writeFail found moved unwritten | clear found moved | finish found moved
  | dispatch moved => exact there
  | create rd here => exact answered_set there here (by simp)
  | _ here => exact answered_set there here (by simp)

/-- A request is served by a handler that is there. -/
theorem Asked.lt_length (asked : w.Asked h request) : h < w.handlers.length := by
  obtain ⟨_, hd, found, rfl, -⟩ := asked
  exact Table.lt_length found

/-- The handler that serves a request answers that request. -/
theorem Asked.request_eq (asked : w.Asked h request) (found : w.handlers[h]? = some ⟨asker, pc⟩) :
    asker = request := by
  obtain ⟨_, hd, there, rfl, same⟩ := asked
  obtain rfl := Option.some.inj (there.symm.trans found)
  exact same

end World

/-! ## Sources of events -/

/-- The event that acknowledges a start. -/
def startEvent (id : Text) (sc : Nat) (j : Body) : GatewayEvent :=
  if sc ≠ 202 then .jobRejected id sc (j.message.getD "ERR")
  else .jobAccepted id sc (j.jobId.getD "") j.state j.message

/-- `http_post` returned this: the request raised, or its handler answered it. -/
inductive PostResult (w : World) (first : Option Nat) (request : Request) : Nat → Body → Prop where
  /-- The request raised. -/
  | raised : PostResult w first request httpFailure.1 httpFailure.2
  /-- The handler that took it answered. -/
  | answered {h : Nat} {reply : Reply} (readable : Bool) (own : first = some h)
      (found : w.handlers[h]? = some ⟨request, .answered reply⟩) :
      PostResult w first request reply.status (safeJson readable reply)

/-- The call with one request was told this: its request raised, or its handler answered it. -/
inductive SyncResult (site : Site) (w : World) (first : Option Nat) (request : Request) :
    Nat × Members → Prop where
  /-- The request raised. -/
  | raised : SyncResult site w first request HttpOutcome.raised.result
  /-- The handler that took it answered. -/
  | answered {h : Nat} {reply : Reply} (readable : Bool) (own : first = some h)
      (found : w.handlers[h]? = some ⟨request, .answered reply⟩) :
      SyncResult site w first request (reply.outcome site.text readable).result

/-- The acknowledgement of a conversation is what its own request came to. -/
def Talk.Quotes (site : Site) (w : World) (talk : Talk) : Prop :=
  match talk.thread with
  | .refused _ => True
  | .sync call (.returned event) =>
    ∃ result, SyncResult site w talk.first (call.asks site.crow) result ∧
      event = call.event result
  | .sync _ _ => True
  | .start call => ∀ event ∈ call.published, (∃ report, event = .jobResult report) ∨
    ∃ sc j, PostResult w talk.first (startRequest call.timeoutMs) sc j ∧
      event = startEvent call.id sc j

/-- The handler a thread waits for with its first request. -/
def TalkThread.waitsFor : TalkThread → Option Nat
  | .sync _ (.waiting h) => some h
  | .start call =>
    match call.pc with
    | .starting h => some h
    | _ => none
  | _ => none

/-- The conversation has its place in the service. -/
structure Talk.Placed (site : Site) (w : World) (talk : Talk) : Prop where
  /-- The handler of the first request serves that request. -/
  asked : ∀ h, talk.first = some h →
    ∃ request, talk.thread.asks site.crow = some request ∧ w.Asked h request
  /-- A thread that waits for its first answer waits for that handler. -/
  waits : ∀ h, talk.thread.waitsFor = some h → talk.first = some h
  /-- What is acknowledged is what the request came to. -/
  quotes : talk.Quotes site w

variable {site : Site}

/-- A result that was obtained stays obtained. -/
theorem PostResult.step {w next : World} {event : Event} {first : Option Nat} {request : Request}
    {sc : Nat} {j : Body} (result : PostResult w first request sc j)
    (taken : w.step event = some next) : PostResult next first request sc j := by
  cases result with
  | raised => exact .raised
  | answered readable own found => exact .answered readable own (World.answered_step found taken)

/-- So is the result of a call with one request. -/
theorem SyncResult.step {w next : World} {event : Event} {first : Option Nat} {request : Request}
    {result : Nat × Members} (told : SyncResult site w first request result)
    (taken : w.step event = some next) : SyncResult site next first request result := by
  cases told with
  | raised => exact .raised
  | answered readable own found => exact .answered readable own (World.answered_step found taken)

namespace Talk

variable {w next : World} {event : Event} {talk : Talk}

/-- What has been acknowledged stays true. -/
theorem Quotes.step (quotes : talk.Quotes site w) (taken : w.step event = some next) :
    talk.Quotes site next := by
  unfold Quotes at quotes ⊢
  split
  · trivial
  · rename_i call event thread
    rw [thread] at quotes
    obtain ⟨result, told, same⟩ := quotes
    exact ⟨result, told.step taken, same⟩
  · trivial
  · rename_i call thread
    rw [thread] at quotes
    intro event member
    obtain report | ⟨sc, j, told, same⟩ := quotes event member
    · exact .inl report
    · exact .inr ⟨sc, j, told.step taken, same⟩

/-- A conversation keeps its place while the service moves. -/
theorem Placed.step (placed : talk.Placed site w) (taken : w.step event = some next) :
    talk.Placed site next where
  asked h own := by
    obtain ⟨request, asks, asked⟩ := placed.asked h own
    exact ⟨request, asks, asked.step taken⟩
  waits := placed.waits
  quotes := placed.quotes.step taken

end Talk

namespace Bridge

variable {w : World} {call : StartAndPoll} {b : Bridge} {act : TalkAct}

/-- A step of the polling call leaves the service alone or hands it a request. -/
theorem world_of_act (moved : Bridge.step ⟨w, call⟩ act.toBridge = some b) :
    b.world = w ∨ ∃ request, w.step (.request request) = some b.world := by
  cases act with
  | send =>
    cases step_move moved with
    | post here taken => exact .inr ⟨_, taken⟩
    | get here taken => exact .inr ⟨_, taken⟩
  | lose => cases step_move moved <;> exact .inl rfl
  | receive readable => cases step_move moved <;> exact .inl rfl
  | time now => cases step_move moved <;> exact .inl rfl

end Bridge

namespace Edge

variable {e next : Edge} {event : EdgeEvent} {events : List EdgeEvent}

/-- A step of the two programs leaves the service alone or is a step of it, which draws an
identifier only if the service moves itself. -/
theorem world_step (taken : e.step site event = some next) :
    next.world = e.world ∨ (∃ request, e.world.step (.request request) = some next.world) ∨
      ∃ moved, event = .service moved ∧ e.world.step moved = some next.world := by
  cases step_move taken with
  | service moved => exact .inr (.inr ⟨_, rfl, moved⟩)
  | message payload clockMs => exact .inl rfl
  | post here thread moved => exact .inr (.inl ⟨_, moved⟩)
  | lose here thread going => exact .inl rfl
  | answer readable here thread found => exact .inl rfl
  | call here thread moved =>
    obtain same | asks := Bridge.world_of_act moved
    · exact .inl same
    · exact .inr (.inl asks)

/-- What every step of the service preserves of a conversation, every step of the two programs
preserves of the conversations that do not move. -/
theorem framed (P : World → Talk → Prop)
    (preserved : ∀ {w after : World} {event : Event} {talk : Talk}, P w talk →
      w.step event = some after → P after talk)
    (held : Table.All e.talks fun _ talk => P e.world talk)
    (taken : e.step site event = some next) :
    Table.All e.talks fun _ talk => P next.world talk := by
  obtain same | ⟨_, moved⟩ | ⟨_, -, moved⟩ := world_step taken
  · rw [same]
    exact held
  · exact held.mono fun _ _ _ holds => preserved holds moved
  · exact held.mono fun _ _ _ holds => preserved holds moved

end Edge

/-! ## One step of a polling call -/

namespace StartAndPoll

variable {call : StartAndPoll}

/-- After `http_post` the acknowledgement is published. -/
theorem published_onStart (sc : Nat) (j : Body) :
    (call.onStart sc j).published = call.published ++ [startEvent call.id sc j] := by
  unfold onStart startEvent
  split <;> rfl

/-- After `http_get` a result is published or nothing. -/
theorem mem_onPoll {jobId : String} {deadline : Int} {gsc : Nat} {gj : Body} {event : GatewayEvent}
    (found : event ∈ (call.onPoll jobId deadline gsc gj).published) :
    event ∈ call.published ∨ ∃ report, event = .jobResult report := by
  obtain same | ⟨status, -, -, -, same⟩ := call.onPoll_cases jobId deadline gsc gj
  · rw [same] at found
    exact .inl found
  · rw [same] at found
    exact (mem_publish.mp found).imp_right fun new => ⟨_, new⟩

/-- So at the loop condition. -/
theorem mem_onTime {jobId : String} {deadline now : Int} {event : GatewayEvent}
    (found : event ∈ (call.onTime jobId deadline now).published) :
    event ∈ call.published ∨ ∃ report, event = .jobResult report := by
  unfold onTime at found
  split at found
  · exact .inl found
  · exact (mem_publish.mp found).imp_right fun new => ⟨_, new⟩

end StartAndPoll

/-- The place of a polling call, with the handler of its first request. -/
structure StartAndPoll.Placed (w : World) (first : Option Nat) (call : StartAndPoll) : Prop where
  /-- The handler of the first request serves that request. -/
  asked : ∀ h, first = some h → w.Asked h (startRequest call.timeoutMs)
  /-- A call that waits for its first answer waits for that handler. -/
  waits : ∀ h, call.pc = .starting h → first = some h
  /-- What is acknowledged is what the request came to. -/
  quotes : ∀ event ∈ call.published, (∃ report, event = .jobResult report) ∨
    ∃ sc j, PostResult w first (startRequest call.timeoutMs) sc j ∧
      event = startEvent call.id sc j

namespace StartAndPoll.Placed

variable {w : World} {first : Option Nat} {call : StartAndPoll}

/-- A call keeps its place while the service moves. -/
theorem step {next : World} {event : Event} (placed : call.Placed w first)
    (taken : w.step event = some next) : call.Placed next first where
  asked h own := (placed.asked h own).step taken
  waits := placed.waits
  quotes event member := (placed.quotes event member).imp_right fun ⟨sc, j, result, same⟩ =>
    ⟨sc, j, result.step taken, same⟩

/-- The call acknowledges what its request came to. -/
theorem onStart (placed : call.Placed w first) {sc : Nat} {j : Body}
    (result : PostResult w first (startRequest call.timeoutMs) sc j) :
    (call.onStart sc j).Placed w first := by
  obtain ⟨id, timeoutMs, -⟩ := @StartAndPoll.args_onStart call sc j
  refine ⟨?_, fun h starting => ?_, fun event member => ?_⟩
  · rw [timeoutMs]
    exact placed.asked
  · unfold StartAndPoll.onStart at starting
    split at starting <;> contradiction
  · rw [id, timeoutMs]
    rw [StartAndPoll.published_onStart, List.mem_append, List.mem_singleton] at member
    obtain old | rfl := member
    · exact placed.quotes event old
    · exact .inr ⟨sc, j, result, rfl⟩

/-- A call that goes on without an acknowledgement keeps its place. -/
theorem goes_on {later : StartAndPoll} (placed : call.Placed w first) (id : later.id = call.id)
    (timeoutMs : later.timeoutMs = call.timeoutMs) (past : ∀ h, later.pc ≠ .starting h)
    (same : ∀ event ∈ later.published,
      event ∈ call.published ∨ ∃ report, event = .jobResult report) :
    later.Placed w first := by
  refine ⟨?_, fun h starting => absurd starting (past h), fun event member => ?_⟩
  · rw [timeoutMs]
    exact placed.asked
  · rw [id, timeoutMs]
    obtain old | report := same event member
    · exact placed.quotes event old
    · exact .inl report

/-- After `http_get` a call has its place. -/
theorem onPoll (placed : call.Placed w first) (jobId : String) (deadline : Int) (gsc : Nat)
    (gj : Body) : (call.onPoll jobId deadline gsc gj).Placed w first := by
  obtain ⟨id, timeoutMs, -⟩ := @StartAndPoll.args_onPoll call jobId deadline gsc gj
  refine placed.goes_on id timeoutMs (fun h starting => ?_) fun event member =>
    StartAndPoll.mem_onPoll member
  obtain same | ⟨status, -, -, -, same⟩ := call.onPoll_cases jobId deadline gsc gj
  all_goals
    rw [same] at starting
    contradiction

/-- So at the loop condition. -/
theorem onTime (placed : call.Placed w first) (jobId : String) (deadline now : Int) :
    (call.onTime jobId deadline now).Placed w first := by
  obtain ⟨id, timeoutMs, -⟩ := @StartAndPoll.args_onTime call jobId deadline now
  refine placed.goes_on id timeoutMs (fun h starting => ?_) fun event member =>
    StartAndPoll.mem_onTime member
  unfold StartAndPoll.onTime at starting
  split at starting <;> contradiction

end StartAndPoll.Placed

/-- A polling call in its place in a conversation. -/
theorem Talk.placed_start {w : World} {talk : Talk} {call : StartAndPoll}
    (thread : talk.thread = .start call) :
    talk.Placed site w ↔ call.Placed w talk.first := by
  obtain ⟨payload, clockMs, kind, first, raised⟩ := talk
  obtain rfl : kind = .start call := thread
  constructor
  · rintro ⟨asked, waits, quotes⟩
    refine ⟨fun h own => ?_, fun h starting => ?_, quotes⟩
    · obtain ⟨request, same, served⟩ := asked h own
      cases same
      exact served
    · exact waits h (by simp [TalkThread.waitsFor, starting])
  · rintro ⟨asked, waits, quotes⟩
    refine ⟨fun h own => ⟨_, rfl, asked h own⟩, fun h waiting => ?_, quotes⟩
    simp only [TalkThread.waitsFor] at waiting
    split at waiting
    · rename_i starting
      cases waiting
      exact waits h starting
    · contradiction

/-- A conversation that is concluded keeps its handler. -/
theorem Talk.first_concludes (site : Site) (talk : Talk) (call : SyncCall)
    (result : Nat × Members) : (talk.concludes site call result).first = talk.first := by
  obtain same | ⟨-, same⟩ := talk.concludes_cases site call result <;> rw [same]

/-- So does one that goes on. -/
theorem Talk.first_goesOn (site : Site) (talk : Talk) (call later : StartAndPoll) :
    (talk.goesOn site call later).first = talk.first := by
  obtain same | ⟨event, -, -, same⟩ := talk.goesOn_cases site call later <;> rw [same]

namespace Talk.Placed

variable {w : World} {talk : Talk}

/-- A thread with one request acknowledges what the request came to. -/
theorem concludes {call : SyncCall} {pc : SyncPc} {result : Nat × Members}
    (placed : talk.Placed site w) (thread : talk.thread = .sync call pc)
    (told : SyncResult site w talk.first (call.asks site.crow) result) :
    (talk.concludes site call result).Placed site w := by
  have asked := placed.asked
  rw [thread] at asked
  obtain same | ⟨-, same⟩ := talk.concludes_cases site call result
  · rw [same]
    exact ⟨asked, by simp [TalkThread.waitsFor], result, told, rfl⟩
  · rw [same]
    exact ⟨asked, by simp [TalkThread.waitsFor], trivial⟩

/-- A polling call keeps its place where it goes on and where it is ended. -/
theorem goesOn {call later : StartAndPoll} (placed : later.Placed w talk.first)
    (id : later.id = call.id) (timeoutMs : later.timeoutMs = call.timeoutMs)
    (grown : call.published <+: later.published) :
    (talk.goesOn site call later).Placed site w := by
  obtain same | ⟨event, -, -, same⟩ := talk.goesOn_cases site call later
  · rw [same]
    exact (Talk.placed_start rfl).mpr placed
  · rw [same]
    have ended : StartAndPoll.Placed w talk.first { call with pc := .returned } :=
      placed.goes_on id.symm timeoutMs.symm (by simp) fun event member =>
        .inl (grown.subset member)
    exact (Talk.placed_start rfl).mpr ended

end Talk.Placed

namespace Edge

variable {e next : Edge} {event : EdgeEvent} {events : List EdgeEvent}

/-- A polling call that moves keeps its place. -/
theorem placed_call {talk : Talk} {call : StartAndPoll} {act : TalkAct} {b : Bridge}
    (placed : call.Placed e.world talk.first) (shape : call.Shape)
    (moved : Bridge.step ⟨e.world, call⟩ act.toBridge = some b) :
    b.call.Placed b.world (e.firstAfter talk call act) := by
  cases act with
  | send =>
    cases Bridge.step_move moved with
    | post here taken =>
      have posting : call.pc = .posting := here
      have silent : call.published = [] := by rwa [StartAndPoll.Shape, posting] at shape
      have first : e.firstAfter talk call .send = some e.world.handlers.length := by
        simp [firstAfter, posting]
      rw [first]
      refine ⟨fun h own => ?_, fun h starting => ?_, fun event member => ?_⟩
      · cases own
        exact World.asked_arrived taken
      · cases starting
        rfl
      · rw [show event ∈ call.published ↔ False by simp [silent]] at member
        contradiction
    | get here taken =>
      have getting : call.pc = .getting _ _ := here
      have first : e.firstAfter talk call .send = talk.first := by simp [firstAfter, getting]
      rw [first]
      exact (placed.step taken).goes_on rfl rfl (by simp) fun event member => .inl member
  | lose =>
    cases Bridge.step_move moved with
    | loseStart here => exact placed.onStart .raised
    | @losePoll polled due here =>
      exact placed.onPoll polled due httpFailure.1 httpFailure.2
  | receive readable =>
    cases Bridge.step_move moved with
    | answerStart _ here found =>
      have own := placed.waits _ here
      have same := (placed.asked _ own).request_eq found
      subst same
      exact placed.onStart (.answered readable own found)
    | answerPoll _ here found => exact placed.onPoll _ _ _ _
  | time now =>
    cases Bridge.step_move moved with
    | date _ here => exact placed.goes_on rfl rfl (by simp) fun event member => .inl member
    | check _ here => exact placed.onTime _ _ _

/-- A message just received has asked for nothing. -/
theorem placed_receives (w : World) (payload : Payload) (clockMs : Int) :
    (site.receives payload clockMs).Placed site w := by
  unfold Site.receives
  cases onMessage site.py site.startTimeoutMs clockMs payload with
  | publish event => exact ⟨by simp, by simp [Reaction.thread, TalkThread.waitsFor], trivial⟩
  | dispatch handler =>
    cases handler with
    | startAndPoll id timeoutMs =>
      rw [Talk.placed_start rfl]
      exact ⟨by simp, by simp, by simp⟩
    | _ => exact ⟨by simp, by simp [Reaction.thread, TalkThread.waitsFor], trivial⟩

/-- Every step keeps every conversation in its place. -/
theorem placed_step (orderly : Table.All e.talks fun _ talk => talk.Orderly site)
    (held : Table.All e.talks fun _ talk => talk.Placed site e.world)
    (taken : e.step site event = some next) :
    Table.All next.talks fun _ talk => talk.Placed site next.world := by
  have kept : Table.All e.talks fun _ talk => talk.Placed site next.world :=
    framed (fun w talk => talk.Placed site w) (fun placed moved => placed.step moved) held taken
  cases step_move taken with
  | service moved => exact kept
  | message payload clockMs => exact kept.spawn (placed_receives _ payload clockMs)
  | post here thread moved =>
    refine kept.set ⟨fun h own => ?_, fun h waiting => ?_, trivial⟩
    · cases own
      exact ⟨_, rfl, World.asked_arrived moved⟩
    · cases waiting
      rfl
  | lose here thread going => exact kept.set ((kept _ _ here).concludes thread .raised)
  | @answer m h talk call request reply readable here thread found =>
    have placed := kept _ _ here
    have own : talk.first = some h := placed.waits h (by simp [thread, TalkThread.waitsFor])
    obtain ⟨asks, same, asked⟩ := placed.asked h own
    obtain rfl : call.asks site.crow = asks := by simpa [thread, TalkThread.asks] using same
    obtain rfl := asked.request_eq found
    exact kept.set (placed.concludes thread (.answered readable own found))
  | @call m talk running act b here thread moved =>
    have shape := ((orderly _ _ here).unraised (Bridge.going_of_talk thread moved)).2
    rw [thread] at shape
    have placed := placed_call ((Talk.placed_start thread).mp (held _ _ here)) shape moved
    obtain ⟨id, timeoutMs, -⟩ := Bridge.args_step moved
    exact kept.set (Talk.Placed.goesOn placed id timeoutMs (Bridge.prefix_step moved))

/-- No two conversations have their first request with one handler. -/
def Apart (e : Edge) : Prop := ∀ h, Table.AtMostOne e.talks fun talk => talk.first = some h

/-- A request that is new to the service is with a new handler. -/
theorem Apart.post {m : Nat} {talk later : Talk} (apart : e.Apart)
    (held : Table.All e.talks fun _ talk => talk.Placed site e.world)
    (here : e.talks[m]? = some talk) (first : later.first = some e.world.handlers.length) :
    ∀ h, Table.AtMostOne (e.talks.set m later) fun talk => talk.first = some h := by
  intro h
  by_cases new : h = e.world.handlers.length
  · refine .set_first ?_
    rintro ⟨i, other, found, own⟩
    obtain ⟨request, -, asked⟩ := (held i other found).asked h own
    have old := asked.lt_length
    omega
  · refine (apart h).set here fun own => ?_
    exact absurd (Option.some.inj (own.symm.trans first)) new

/-- Every step keeps the handlers apart. -/
theorem Apart.step (apart : e.Apart)
    (held : Table.All e.talks fun _ talk => talk.Placed site e.world)
    (taken : e.step site event = some next) : next.Apart := by
  intro h
  cases step_move taken with
  | service moved => exact apart h
  | message payload clockMs =>
    refine (apart h).spawn fun own => ?_
    contradiction
  | post here thread moved => exact apart.post held here rfl h
  | lose here thread going =>
    exact (apart h).set here fun own => (Talk.first_concludes ..).symm.trans own
  | answer readable here thread found =>
    exact (apart h).set here fun own => (Talk.first_concludes ..).symm.trans own
  | @call m talk running act b here thread moved =>
    by_cases posts : e.firstAfter talk running act = talk.first
    · exact (apart h).set here fun own => posts.symm.trans ((Talk.first_goesOn ..).symm.trans own)
    · refine apart.post held here ((Talk.first_goesOn ..).trans ?_) h
      unfold firstAfter at posts ⊢
      split at posts
      · split at posts
        · rename_i posting
          exact if_pos posting
        · contradiction
      · contradiction

/-- What the conversations rest on. -/
structure Settled (site : Site) (e : Edge) : Prop where
  /-- They are in order. -/
  orderly : Table.All e.talks fun _ talk => talk.Orderly site
  /-- They have their places in the service. -/
  placed : Table.All e.talks fun _ talk => talk.Placed site e.world
  /-- They have handlers of their own. -/
  apart : e.Apart

/-- In every reachable state all of it holds. -/
theorem settled (reached : Transition.run (Edge.step site) {} events = some e) :
    e.Settled site := by
  refine Transition.run_stable (Settled site) ?_ ⟨by simp, by simp, fun h i j a b found => ?_⟩
    reached
  · intro state event after held taken
    exact ⟨orderly_step held.orderly taken, placed_step held.orderly held.placed taken,
      held.apart.step held.placed taken⟩
  · simp at found

/-- In every run, with any number of messages under way, what acknowledges a message is what its
own request came to: the request raised, or it was answered by the handler that took it, which
serves the request made from this message and no request of another conversation. -/
theorem acknowledgements_are_replies (site : Site) (events : List EdgeEvent) (e : Edge)
    (reached : Transition.run (Edge.step site) {} events = some e) (m : Nat) (talk : Talk)
    (found : e.talks[m]? = some talk) :
    talk.thread.reaction = onMessage site.py site.startTimeoutMs talk.clockMs talk.payload ∧
    talk.Quotes site e.world ∧
    ∀ h, talk.first = some h →
      (∃ request, talk.thread.asks site.crow = some request ∧ e.world.Asked h request) ∧
      ∀ n other, e.talks[n]? = some other → other.first = some h → n = m := by
  have held := settled reached
  refine ⟨(held.orderly m talk found).origin, (held.placed m talk found).quotes,
    fun h own => ⟨(held.placed m talk found).asked h own, fun n other there its => ?_⟩⟩
  exact held.apart h n m other talk there found its own

/-- A stop comes from the cloud and is acknowledged. -/
def stopFromCloud : List EdgeEvent :=
  [.message (.json (.dict (stopMessage "demo-3"))) 0, .talk 0 .send] ++
    ((World.idleStop 0).drop 1).map EdgeEvent.service ++ [.talk 0 (.receive true)]

/-- The acknowledgement quotes the answer of the service. -/
theorem stopFromCloud_acknowledged : ∃ (e : Edge) (talk : Talk) (event : CloudEvent),
    Transition.run (Edge.step plainSite) {} stopFromCloud = some e ∧
    talk.thread.published plainSite = [event] ∧
    Members.lookup event "http_status" = some (.int 200) ∧ talk.Quotes plainSite e.world ∧
    e.world.Asked 0 .stop := by
  obtain ⟨e, talk, event, reached, found, published, status, first, asks⟩ : ∃ (e : Edge)
      (talk : Talk) (event : CloudEvent),
      Transition.run (Edge.step plainSite) {} stopFromCloud = some e ∧
      e.talks[0]? = some talk ∧ talk.thread.published plainSite = [event] ∧
      Members.lookup event "http_status" = some (.int 200) ∧ talk.first = some 0 ∧
      talk.thread.asks plainSite.crow = some .stop := ⟨_, _, _, rfl, rfl, rfl, rfl, rfl, rfl⟩
  obtain ⟨-, quotes, served⟩ :=
    acknowledgements_are_replies plainSite stopFromCloud e reached 0 talk found
  obtain ⟨⟨request, same, asked⟩, -⟩ := served 0 first
  obtain rfl := Option.some.inj (asks.symm.trans same)
  exact ⟨e, talk, event, reached, published, status, quotes, asked⟩

end Edge

end QrEdgeGateway
