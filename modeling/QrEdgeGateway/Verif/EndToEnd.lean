import QrEdgeGateway.Lib.Refinement
import QrEdgeGateway.Verif.Attribution
import QrEdgeGateway.Verif.Contract

/-!
# From cloud to worker and back

A start message that is announced a job has a worker of its own in the service, with the timeout
the message asked for, as long as `gen_id` draws identifiers that are new. What is published as the
result of the job is then the record the worker left, or the gateway's own timeout, which says so.
-/

namespace QrEdgeGateway

/-! ## Jobs of the service -/

namespace World

variable {w next : World} {event : Event} {events : List Event}

/-- What a step of the service does to the workers: one is started, one moves, or none does. -/
theorem threads_step (taken : w.step event = some next) :
    (∀ k obs, event ≠ .job k obs) ∧ next.threads = w.threads ∨
    (∀ k obs, event ≠ .job k obs) ∧ (∃ h id timeoutMs,
      next.threads = w.threads ++ [⟨h, { id, timeoutMs }⟩]) ∨
    ∃ k obs thread job, event = .job k obs ∧ w.threads[k]? = some thread ∧
      thread.job.next obs = some job ∧ next.threads = w.threads.set k { thread with job } := by
  have works : ∀ {k obs thread job effect}, w.threads[k]? = some thread →
      thread.job.step obs = some (job, effect) → event = .job k obs →
      next.threads = w.threads.set k { thread with job } →
      ∃ k obs thread job, event = .job k obs ∧ w.threads[k]? = some thread ∧
        thread.job.next obs = some job ∧ next.threads = w.threads.set k { thread with job } :=
    fun found moved same threads =>
      ⟨_, _, _, _, same, found, by simp [Job.next, moved], threads⟩
  cases (step_move taken).2 with
  | launch here free => exact .inr (.inl ⟨by simp, _, _, _, rfl⟩)
  | work found agrees moved => exact .inr (.inr (works found moved rfl rfl))
  | write found moved written => exact .inr (.inr (works found moved rfl rfl))
  | writeFail found moved unwritten => exact .inr (.inr (works found moved rfl rfl))
  | clear found moved => exact .inr (.inr (works found moved rfl rfl))
  | finish found moved => exact .inr (.inr (works found moved rfl rfl))
  | _ => exact .inl ⟨by simp, rfl⟩

/-- Every worker, and every start call with a record and no worker yet, has a job of its own. -/
structure Spread (threads : List Thread) (handlers : List Handler) : Prop where
  /-- Workers have different jobs. -/
  workers : ∀ id, Table.AtMostOne threads fun thread => thread.job.id = id
  /-- A start call has a job that no worker has. -/
  starting : Table.All handlers fun _ hd => Table.All threads fun _ thread =>
    hd.pc.starting ≠ some thread.job.id

namespace Spread

variable {threads : List Thread} {handlers : List Handler} {h k : Nat} {request : Request}
  {pc pc' : RestPc} {thread : Thread} {job : Job} {id : String}

/-- A handler that takes up no job it did not have. -/
theorem move (held : Spread threads handlers) (here : handlers[h]? = some ⟨request, pc⟩)
    (keeps : ∀ id, pc'.starting = some id → pc.starting = some id) :
    Spread threads (handlers.set h ⟨request, pc'⟩) :=
  ⟨held.workers, held.starting.set fun k thread found starting =>
    held.starting h _ here k thread found (keeps _ starting)⟩

/-- A worker's step. -/
theorem work (held : Spread threads handlers) (found : threads[k]? = some thread)
    (same : job.id = thread.job.id) : Spread (threads.set k { thread with job }) handlers :=
  ⟨fun id => (held.workers id).set found fun its => same.symm.trans its,
    held.starting.mono fun i hd there starting => starting.set (by
      rw [same]
      exact starting k thread found)⟩

/-- A launched worker takes over the job of its start call. -/
theorem launch {timeoutMs : Int} (held : Spread threads handlers)
    (apart : Table.AtMostOne handlers fun hd => hd.pc.starting = some id)
    (here : handlers[h]? = some ⟨request, .launching id⟩) :
    Spread (threads ++ [⟨h, { id, timeoutMs }⟩]) (handlers.set h ⟨request, .replying id⟩) := by
  refine ⟨fun name => (held.workers name).spawn fun same => ?_, fun i hd found => ?_⟩
  · rintro ⟨k, thread, there, its⟩
    have other : some id ≠ some thread.job.id := held.starting h _ here k thread there
    rw [its, ← same] at other
    exact other rfl
  · obtain ⟨rfl, rfl⟩ | ⟨differs, old⟩ := Table.get_set found
    · intro k thread there
      simp [RestPc.starting]
    · refine (held.starting i hd old).spawn fun starting => ?_
      exact differs (apart i h hd _ old here starting rfl)

end Spread

/-- What the jobs of the service rest on in runs whose draws are new. -/
structure Own (w : World) : Prop where
  /-- Records are reserved and quoted. -/
  filed : w.Filed
  /-- Records are there. -/
  recorded : Recorded w.store w.threads w.handlers
  /-- Jobs are apart. -/
  spread : Spread w.threads w.handlers

/-- A step whose draw is new keeps the jobs apart. -/
theorem Spread.step (held : Spread w.threads w.handlers) (filed : w.Filed)
    (recorded : Recorded w.store w.threads w.handlers) (fresh : w.redraws event = false)
    (taken : w.step event = some next) : Spread next.threads next.handlers := by
  cases (step_move taken).2 with
  | arrive request =>
    refine ⟨held.workers, held.starting.spawn fun k thread found => ?_⟩
    simp [starting_entry]
  | create rd here =>
    have absent : w.store.get (genId rd) = none := by
      simpa [redraws, JobStore.contains, JobStore.get] using fresh
    refine ⟨held.workers, held.starting.set fun k thread found same => ?_⟩
    -- every worker's record is in the store, and the new identifier is not
    have present : (w.store.get thread.job.id).isSome = true := recorded.worker k thread found
    rw [← Option.some.inj same, absent] at present
    contradiction
  | arm here => exact held.move here fun id starting => starting
  | launch here free => exact held.launch (filed.reserved.apart _) here
  | work found agrees moved | write found moved written | writeFail found moved unwritten
  | clear found moved | finish found moved => exact held.work found (Job.step_cases moved).1
  | terminate here same | dispatch moved => exact held
  | receive here ready =>
    exact held.move here fun id starting => by simp [starting_onResponse] at starting
  | idle here free | join here same found exited =>
    exact held.move here fun id starting => by simp at starting
  | _ here => exact held.move here fun id starting => by simp [RestPc.starting] at starting

/-- Every step whose draw is new keeps it. -/
theorem Own.step (held : w.Own) (fresh : w.redraws event = false)
    (taken : w.step event = some next) : next.Own where
  filed := held.filed.step fresh taken
  recorded := held.recorded.step taken
  spread := held.spread.step held.filed held.recorded fresh taken

/-- It holds at the start. -/
theorem own_start : ({} : World).Own :=
  ⟨filed_init, (alive Transition.run_nil).recorded,
    ⟨fun id i j a b found => by simp at found, by simp⟩⟩

end World

namespace World

variable {w : World} {events : List Event} {h : Nat} {request : Request} {reply : Reply}

/-- A request that is answered 202 is a start, and its worker has the job of the answer and the
timeout of the request. -/
theorem worker_of_accepted (reached : Transition.run World.step {} events = some w)
    (answered : w.handlers[h]? = some ⟨request, .answered reply⟩) (accepted : reply.status = 202) :
    ∃ (k : Nat) (worker : Thread), w.threads[k]? = some worker ∧ worker.owner = h ∧
      reply.jobId = some worker.job.id ∧ request = .start worker.job.timeoutMs := by
  obtain ⟨id, named, k, worker, found, rfl, rfl⟩ := names reached h _ answered accepted
  refine ⟨k, worker, found, rfl, named, ?_⟩
  obtain ⟨hd, there, timeout⟩ := (replied reached).timed.timeout k worker found
  obtain rfl := Option.some.inj (there.symm.trans answered)
  rw [timeout]
  -- the document lists 202 for `/start` only
  obtain ⟨schema, listed, -⟩ | ⟨-, refused, -⟩ | ⟨-, -, rfl⟩ := (told reached).route _ _ answered
  · rw [accepted] at listed
    cases request with
    | start timeoutMs => rfl
    | _ => simp [Request.responses] at listed
  · rw [accepted] at refused
    contradiction
  · contradiction

end World

/-! ## Results -/

namespace Bridge

variable {b next : Bridge} {event : BridgeEvent}

/-- A result is the record of its job, or the gateway's own timeout, and says which. -/
def Truthful (b : Bridge) : Prop :=
  ∀ report, .jobResult report ∈ b.call.published →
    report.ok = true ∧ Reported b.world report ∨ report = b.call.pollTimeout report.jobId

/-- A call stays truthful while the service moves. -/
theorem Truthful.service {w after : World} {event : Event} {call : StartAndPoll} {pc : PollPc}
    (truthful : Truthful ⟨w, call⟩) (filed : w.Filed) (fresh : w.redraws event = false)
    (taken : w.step event = some after) : Truthful ⟨after, { call with pc }⟩ := by
  intro report found
  exact (truthful report found).imp_left fun ⟨ok, reported⟩ =>
    ⟨ok, reported.step filed fresh taken⟩

/-- A call that publishes only such results stays truthful. -/
theorem Truthful.goes_on {later : StartAndPoll} (truthful : b.Truthful)
    (id : later.id = b.call.id)
    (new : ∀ report, .jobResult report ∈ later.published →
      .jobResult report ∈ b.call.published ∨ report.ok = true ∧ Reported b.world report ∨
        report = later.pollTimeout report.jobId) : Truthful ⟨b.world, later⟩ := by
  intro report found
  obtain old | told := new report found
  · refine (truthful report old).imp_right fun timeout => ?_
    rw [timeout]
    simp [StartAndPoll.pollTimeout, id]
  · exact told

/-- Every step whose draw is new keeps the call truthful. -/
theorem Truthful.step (truthful : b.Truthful) (served : b.Served) (fresh : b.redraws event = false)
    (taken : b.step event = some next) : next.Truthful := by
  cases step_move taken with
  | service moved => exact truthful.service served.filed fresh moved
  | post here moved => exact truthful.service served.filed rfl moved
  | get here moved => exact truthful.service served.filed rfl moved
  | loseStart here | answerStart readable here there =>
    exact truthful.goes_on (StartAndPoll.args_onStart _ _).1 fun report found =>
      .inl (StartAndPoll.report_of_onStart found)
  | losePoll here =>
    refine truthful.goes_on (StartAndPoll.args_onPoll _ _ _ _).1 fun report found => ?_
    obtain old | ⟨code, -⟩ := StartAndPoll.report_of_onPoll found
    · exact .inl old
    · contradiction
  | @answerPoll polled due h request reply readable here there =>
    refine truthful.goes_on (StartAndPoll.args_onPoll _ _ _ _).1 fun report found => ?_
    obtain same | ⟨status, code, told, terminal, same⟩ :=
      b.call.onPoll_cases polled due reply.status (safeJson readable reply)
    · rw [same] at found
      exact .inl found
    · rw [same] at found
      obtain old | new := StartAndPoll.mem_publish.mp found
      · exact .inl old
      · cases new
        exact .inr (.inl ⟨rfl, terminal, served.told here there code told terminal⟩)
  | date now here => exact truthful
  | @check polled due now here =>
    refine truthful.goes_on (StartAndPoll.args_onTime _ _ _).1 fun report found => ?_
    unfold StartAndPoll.onTime at found
    split at found
    · exact .inl found
    · obtain old | new := StartAndPoll.mem_publish.mp found
      · exact .inl old
      · cases new
        refine .inr (.inr ?_)
        simp [StartAndPoll.pollTimeout, (StartAndPoll.args_onTime _ _ _).1]

end Bridge

/-- A thread with one request is no polling call. -/
theorem Talk.concludes_ne_start (site : Site) (talk : Talk) (call : SyncCall)
    (result : Nat × Members) (polling : StartAndPoll) :
    (talk.concludes site call result).thread ≠ .start polling := by
  obtain same | ⟨-, same⟩ := talk.concludes_cases site call result <;> simp [same]

namespace Edge

variable {site : Site} {e next : Edge} {event : EdgeEvent} {events : List EdgeEvent}

/-- This step draws an identifier the store already holds. -/
def redraws (e : Edge) : EdgeEvent → Bool
  | .service event => e.world.redraws event
  | _ => false

/-- What steps of the service with new draws preserve, steps of the two programs preserve. -/
theorem world_kept (P : World → Prop)
    (preserved : ∀ {w after : World} {event : Event}, P w → w.redraws event = false →
      w.step event = some after → P after)
    (held : P e.world) (fresh : e.redraws event = false) (taken : e.step site event = some next) :
    P next.world := by
  obtain same | ⟨request, moved⟩ | ⟨inner, rfl, moved⟩ := world_step taken
  · rw [same]
    exact held
  · exact preserved held rfl moved
  · exact preserved held fresh moved

/-- Where the polling call of the conversation `m` comes from in a step from `e` to `next`: it is
new, or it was there and stayed, moved or was ended by an event that could not be published. -/
def Stems (site : Site) (e next : Edge) (m : Nat) (call : StartAndPoll) : Prop :=
  (∃ id timeoutMs, call = { id, timeoutMs, pollMax := site.pollMax }) ∨
  ∃ talk running, e.talks[m]? = some talk ∧ talk.thread = .start running ∧
    (call = running ∨ call = { running with pc := .returned } ∨
      ∃ act : TalkAct, Bridge.step ⟨e.world, running⟩ act.toBridge = some ⟨next.world, call⟩)

/-- Every polling call behind a step comes from there. -/
theorem stems_step (taken : e.step site event = some next) :
    Table.All next.talks fun m later => ∀ call, later.thread = .start call →
      Stems site e next m call := by
  have same : Table.All e.talks fun m later => ∀ call, later.thread = .start call →
      Stems site e next m call :=
    fun m talk found call thread => .inr ⟨talk, call, found, thread, .inl rfl⟩
  cases step_move taken with
  | service moved => exact same
  | message payload clockMs =>
    refine same.spawn fun call thread => .inl ?_
    unfold Site.receives at thread
    cases reaction : onMessage site.py site.startTimeoutMs clockMs payload with
    | publish event => simp [reaction, Reaction.thread] at thread
    | dispatch handler =>
      cases handler with
      | startAndPoll id timeoutMs =>
        obtain rfl : { id, timeoutMs, pollMax := site.pollMax } = call := by
          simpa [reaction, Reaction.thread] using thread
        exact ⟨id, timeoutMs, rfl⟩
      | _ => simp [reaction, Reaction.thread] at thread
  | post here thread moved => exact same.set (by simp)
  | lose here thread going =>
    exact same.set fun call start => absurd start (Talk.concludes_ne_start _ _ _ _ _)
  | answer readable here thread found =>
    exact same.set fun call start => absurd start (Talk.concludes_ne_start _ _ _ _ _)
  | @call m talk running act b here thread moved =>
    refine same.set fun call start => .inr ⟨talk, running, here, thread, .inr ?_⟩
    obtain goes | ⟨event, -, -, goes⟩ := Talk.goesOn_cases site
      { talk with first := e.firstAfter talk running act } running b.call
    · rw [goes] at start
      obtain rfl : b.call = call := by simpa using start
      exact .inr ⟨act, moved⟩
    · rw [goes] at start
      obtain rfl : { running with pc := .returned } = call := by simpa using start
      exact .inl rfl

/-- What every step of a polling call beside the service preserves, and its end, every polling
call keeps beside all the others. -/
theorem calls_step (P : Bridge → Prop)
    (preserved : ∀ {b after : Bridge} {event : BridgeEvent}, P b → b.redraws event = false →
      b.step event = some after → P after)
    (ends : ∀ {w : World} {call : StartAndPoll}, P ⟨w, call⟩ →
      P ⟨w, { call with pc := .returned }⟩)
    (begins : ∀ id timeoutMs, P ⟨next.world, { id, timeoutMs, pollMax := site.pollMax }⟩)
    (held : Table.All e.talks fun _ talk => ∀ call, talk.thread = .start call → P ⟨e.world, call⟩)
    (fresh : e.redraws event = false) (taken : e.step site event = some next) :
    Table.All next.talks fun _ talk =>
      ∀ call, talk.thread = .start call → P ⟨next.world, call⟩ := by
  have service : ∀ {inner after call}, P ⟨e.world, call⟩ → e.world.redraws inner = false →
      e.world.step inner = some after → P ⟨after, call⟩ := by
    intro inner after call holds one moved
    have stepped : Bridge.step ⟨e.world, call⟩ (.service inner) = some ⟨after, call⟩ := by
      simp [Bridge.step, moved]
    have quiet : Bridge.redraws ⟨e.world, call⟩ (.service inner) = false := one
    exact preserved holds quiet stepped
  have kept : ∀ {call}, P ⟨e.world, call⟩ → P ⟨next.world, call⟩ := by
    intro call holds
    obtain same | ⟨request, moved⟩ | ⟨inner, rfl, moved⟩ := world_step taken
    · rw [same]
      exact holds
    · exact service holds rfl moved
    · exact service holds fresh moved
  intro m later found call thread
  obtain ⟨id, timeoutMs, rfl⟩ | ⟨talk, running, here, was, rfl | rfl | ⟨act, moved⟩⟩ :=
    stems_step taken m later found call thread
  · exact begins id timeoutMs
  · exact kept (held m talk here call was)
  · exact ends (kept (held m talk here running was))
  · have quiet : Bridge.redraws ⟨e.world, running⟩ act.toBridge = false := by cases act <;> rfl
    exact preserved (held m talk here running was) quiet moved

/-- What the conversations rest on in runs whose draws are new. -/
structure Sound (e : Edge) : Prop where
  /-- The service's jobs are apart. -/
  own : e.world.Own
  /-- Every polling call is served and truthful. -/
  calls : Table.All e.talks fun _ talk => ∀ call, talk.thread = .start call →
    Bridge.Served ⟨e.world, call⟩ ∧ Bridge.Truthful ⟨e.world, call⟩

/-- Every step whose draw is new keeps it. -/
theorem Sound.step (sound : e.Sound) (fresh : e.redraws event = false)
    (taken : e.step site event = some next) : next.Sound := by
  have own := world_kept World.Own (fun held one moved => held.step one moved) sound.own fresh taken
  refine ⟨own, calls_step (fun b => b.Served ∧ b.Truthful) ?_ ?_ (fun id timeoutMs => ?_)
    sound.calls fresh taken⟩
  · rintro b after inner ⟨served, truthful⟩ one moved
    exact ⟨served.step one moved, truthful.step served one moved⟩
  · rintro w call ⟨served, truthful⟩
    exact ⟨⟨served.filed, by simp⟩, truthful⟩
  · exact ⟨⟨own.filed, by simp⟩, by simp [Bridge.Truthful]⟩

/-- In every run whose draws are new all of it holds. -/
theorem sound (reached : Transition.run (Edge.step site) {} events = some e)
    (fresh : Transition.Along (Edge.step site) (fun e event => e.redraws event = false) {}
      events) : e.Sound :=
  Transition.run_invariant Sound (fun sound one taken => sound.step one taken)
    ⟨World.own_start, by simp⟩ reached fresh

/-- A run of the two programs is a run of the service. -/
theorem world_run (reached : Transition.run (Edge.step site) {} events = some e) :
    ∃ inner, Transition.run World.step {} inner = some e.world := by
  refine Transition.run_component Edge.world (fun taken => ?_) reached
  obtain same | ⟨request, moved⟩ | ⟨inner, -, moved⟩ := world_step taken
  · exact .inl same
  · exact .inr ⟨.request request, moved⟩
  · exact .inr ⟨inner, moved⟩

/-- The step of the polling call as a step of the conversation `m`. -/
def ofBridge (m : Nat) : BridgeEvent → EdgeEvent
  | .service event => .service event
  | .send => .talk m .send
  | .lose => .talk m .lose
  | .receive readable => .talk m (.receive readable)
  | .time now => .talk m (.time now)

/-- The conversation `m` is a polling call that is as far as this beside the service. -/
def Polls (e : Edge) (m : Nat) (b : Bridge) : Prop :=
  e.world = b.world ∧ ∃ talk, e.talks[m]? = some talk ∧ talk.thread = .start b.call

/-- The conversation takes every step of the call that makes nothing but events that can be
published. -/
theorem Polls.step {m : Nat} {b after : Bridge} {event : BridgeEvent} (polls : e.Polls m b)
    (taken : b.step event = some after)
    (can : ∀ made ∈ after.call.published, site.py.publishes (made.toCloud site.text) = true) :
    ∃ next, e.step site (ofBridge m event) = some next ∧ next.Polls m after := by
  obtain ⟨same, ⟨payload, clockMs, kind, first, raised⟩, found, thread⟩ := polls
  obtain ⟨w, call⟩ := b
  obtain rfl : e.world = w := same
  obtain rfl : kind = .start call := thread
  have goes : ∀ act, Bridge.step ⟨e.world, call⟩ act.toBridge = some after →
      ∃ next, e.step site (.talk m act) = some next ∧ next.Polls m after := by
    intro act moved
    refine ⟨_, by simp only [Edge.step, found, callStep, moved]; rfl, rfl, _,
      Table.get_set_self found, ?_⟩
    obtain goes | ⟨made, new, cannot, -⟩ := Talk.goesOn_cases site
      ⟨payload, clockMs, .start call, e.firstAfter _ call act, raised⟩ call after.call
    · rw [goes]
    · rw [can made (List.mem_of_mem_drop new)] at cannot
      contradiction
  cases event with
  | service inner =>
    obtain ⟨world, moved, rfl⟩ := Option.map_eq_some_iff.mp taken
    exact ⟨{ e with world }, by simp only [ofBridge, Edge.step, moved, Option.map_some], rfl, _,
      found, rfl⟩
  | send => exact goes .send taken
  | lose => exact goes .lose taken
  | receive readable => exact goes (.receive readable) taken
  | time now => exact goes (.time now) taken

/-- So it takes every run of the call. -/
theorem Polls.run {m : Nat} {b after : Bridge} {steps : List BridgeEvent} (polls : e.Polls m b)
    (ran : Transition.run Bridge.step b steps = some after)
    (can : ∀ made ∈ after.call.published, site.py.publishes (made.toCloud site.text) = true) :
    ∃ next, Transition.run (Edge.step site) e (steps.map (ofBridge m)) = some next ∧
      next.Polls m after := by
  induction steps generalizing e b with
  | nil =>
    obtain rfl := Option.some.inj ran
    exact ⟨e, rfl, polls⟩
  | cons event rest ih =>
    obtain ⟨between, taken, onward⟩ := Transition.run_cons.mp ran
    have grown : between.call.published <+: after.call.published :=
      Transition.run_stable (fun b => between.call.published <+: b.call.published)
        (fun held moved => held.trans (Bridge.prefix_step moved)) List.prefix_rfl onward
    obtain ⟨middle, first, there⟩ := polls.step taken fun made member =>
      can made (grown.subset member)
    obtain ⟨next, later, ends⟩ := ih there onward
    exact ⟨next, Transition.run_cons.mpr ⟨middle, first, later⟩, ends⟩

/-- A start comes from the cloud; its job finds a code, and a poll tells it. -/
def startFromCloud : List EdgeEvent :=
  .message (.json (.dict (startMessage (.int 10000)))) 0 :: Bridge.promptRun.map (ofBridge 0)

/-- The call at the end of that run. -/
def toldCall : StartAndPoll where
  id := "demo-2"
  timeoutMs := 10000
  pc := .returned
  published := [.jobAccepted "demo-2" 202 "00000000" (some .running) (some "ACCEPTED"),
    .jobResult ⟨"demo-2", some 200, true, "00000000", .done, some "OK", some .running,
      some qrPrefix⟩]

/-- That run ends there. -/
theorem startFromCloud_run : ∃ (e : Edge) (talk : Talk),
    Transition.run (Edge.step plainSite) {} startFromCloud = some e ∧
    e.talks[0]? = some talk ∧ talk.thread = .start toldCall := by
  have ran : ∃ w, Transition.run Bridge.step (Bridge.start "demo-2" 10000 6000000000)
      Bridge.promptRun = some ⟨w, toldCall⟩ := ⟨_, rfl⟩
  obtain ⟨w, ran⟩ := ran
  have polls : Polls { talks := [plainSite.receives (.json (.dict (startMessage (.int 10000)))) 0] }
      0 (Bridge.start "demo-2" 10000 6000000000) := ⟨rfl, _, rfl, rfl⟩
  have can : ∀ made ∈ toldCall.published,
      plainSite.py.publishes (made.toCloud plainSite.text) = true := by decide +kernel
  obtain ⟨e, reached, -, talk, found, thread⟩ := @Polls.run plainSite _ _ _ _ _ polls ran can
  exact ⟨e, talk, Transition.run_cons.mpr ⟨_, rfl, reached⟩, found, thread⟩

/-- Its one draw is new. -/
theorem startFromCloud_fresh : Transition.Along (Edge.step plainSite)
    (fun e event => e.redraws event = false) {} startFromCloud := by decide +kernel

/-- In runs whose draws of `gen_id` miss the store, whatever else is under way: a result published
for a start is the terminal record the store holds for its job, with its message and its QR text,
or it is the gateway's own timeout. The member `ok` tells which. -/
theorem results_quote_store (site : Site) (events : List EdgeEvent) (e : Edge)
    (reached : Transition.run (Edge.step site) {} events = some e)
    (fresh : Transition.Along (Edge.step site) (fun e event => e.redraws event = false) {} events)
    (m : Nat) (talk : Talk) (call : StartAndPoll) (found : e.talks[m]? = some talk)
    (thread : talk.thread = .start call) (report : JobReport)
    (published : .jobResult report ∈ call.published) :
    (report.ok = true → report.status.Terminal ∧
      ∃ message, report.message = some message ∧
        e.world.store.get report.jobId = some ⟨report.status, message, report.qr⟩) ∧
    (report.ok = false → report = call.pollTimeout report.jobId) := by
  obtain ⟨-, truthful⟩ := (sound reached fresh).calls m talk found call thread
  obtain ⟨ok, reported⟩ | timeout := truthful report published
  · exact ⟨fun _ => reported, fun not => absurd (ok.symm.trans not) (by decide)⟩
  · have not : report.ok = false := by rw [timeout]; rfl
    exact ⟨fun ok => absurd (ok.symm.trans not) (by decide), fun _ => timeout⟩

/-- The result of that run quotes the store. -/
theorem startFromCloud_quotes : ∃ e : Edge,
    Transition.run (Edge.step plainSite) {} startFromCloud = some e ∧
    e.world.store.get "00000000" = some ⟨.done, "OK", some qrPrefix⟩ := by
  obtain ⟨e, talk, reached, found, thread⟩ := startFromCloud_run
  have quotes := (results_quote_store plainSite startFromCloud e reached startFromCloud_fresh 0
    talk toldCall found thread ⟨"demo-2", some 200, true, "00000000", .done, some "OK",
      some .running, some qrPrefix⟩ (by simp [toldCall])).1 rfl
  obtain ⟨-, message, same, stored⟩ := quotes
  obtain rfl := Option.some.inj same
  exact ⟨e, reached, stored⟩

end Edge

/-- The call has announced this job. -/
def StartAndPoll.Announces (call : StartAndPoll) (jobId : String) : Prop :=
  ∃ sc state message, .jobAccepted call.id sc jobId state message ∈ call.published

/-- A body with an identifier is the body of the reply. -/
theorem jobId_of_safeJson {readable : Bool} {reply : Reply} {jobId : String}
    (same : jobId = (safeJson readable reply).jobId.getD "") (named : jobId ≠ "") :
    reply.jobId = some jobId := by
  unfold safeJson at same
  split at same
  · have found : jobId = reply.jobId.getD "" := same
    cases held : reply.jobId with
    | none =>
      rw [held] at found
      exact absurd found named
    | some id =>
      rw [held] at found
      exact congrArg some found.symm
  · exact absurd same named

/-- An announced job was accepted by the handler of the first request. -/
theorem StartAndPoll.Placed.accepted {w : World} {first : Option Nat} {call : StartAndPoll}
    {jobId : String} (placed : call.Placed w first) (announces : call.Announces jobId)
    (named : jobId ≠ "") : ∃ h reply, first = some h ∧
      w.handlers[h]? = some ⟨startRequest call.timeoutMs, .answered reply⟩ ∧
      reply.status = 202 ∧ reply.jobId = some jobId := by
  obtain ⟨sc, state, message, member⟩ := announces
  obtain ⟨report, result⟩ | ⟨code, j, told, same⟩ := placed.quotes _ member
  · contradiction
  · unfold startEvent at same
    split at same
    · contradiction
    · rename_i accepted
      simp only [GatewayEvent.jobAccepted.injEq] at same
      cases told with
      | raised => exact absurd (by decide) accepted
      | @answered h reply readable own found =>
        exact ⟨h, reply, own, found, by simpa using accepted,
          jobId_of_safeJson same.2.2.1 named⟩

namespace Edge

variable {site : Site} {e : Edge} {events : List EdgeEvent}

/-- In runs whose draws of `gen_id` miss the store, whatever else is under way: a start that is
told its job has a worker in the service with that job and with the timeout that `on_message` took
from its message, and no other message is told the same job. -/
theorem announced_job_is_own (site : Site) (events : List EdgeEvent) (e : Edge)
    (reached : Transition.run (Edge.step site) {} events = some e)
    (fresh : Transition.Along (Edge.step site) (fun e event => e.redraws event = false) {} events)
    (m : Nat) (talk : Talk) (call : StartAndPoll) (found : e.talks[m]? = some talk)
    (thread : talk.thread = .start call) (jobId : String) (announces : call.Announces jobId)
    (named : jobId ≠ "") :
    onMessage site.py site.startTimeoutMs talk.clockMs talk.payload =
      .dispatch (.startAndPoll call.id call.timeoutMs) ∧
    (∃ (k : Nat) (worker : Thread), e.world.threads[k]? = some worker ∧ worker.job.id = jobId ∧
      startRequest call.timeoutMs = .start worker.job.timeoutMs) ∧
    ∀ (n : Nat) (other : Talk) (rival : StartAndPoll), e.talks[n]? = some other →
      other.thread = .start rival → rival.Announces jobId → n = m := by
  have held := settled reached
  obtain ⟨inner, ran⟩ := world_run reached
  have launched : ∀ {n : Nat} {other : Talk} {rival : StartAndPoll},
      e.talks[n]? = some other → other.thread = .start rival → rival.Announces jobId →
      ∃ (k : Nat) (worker : Thread), e.world.threads[k]? = some worker ∧
        other.first = some worker.owner ∧ worker.job.id = jobId ∧
        startRequest rival.timeoutMs = .start worker.job.timeoutMs := by
    intro n other rival there kind its
    have placed := (Talk.placed_start kind).mp (held.placed n other there)
    obtain ⟨h, reply, own, answered, accepted, job⟩ := placed.accepted its named
    obtain ⟨k, worker, works, rfl, same, asks⟩ := World.worker_of_accepted ran answered accepted
    exact ⟨k, worker, works, own, Option.some.inj (same.symm.trans job), asks⟩
  obtain ⟨k, worker, works, own, job, asks⟩ := launched found thread announces
  have origin := (held.orderly m talk found).origin
  rw [thread] at origin
  refine ⟨origin.symm, ⟨k, worker, works, job, asks⟩, fun n other rival there kind its => ?_⟩
  obtain ⟨i, second, also, theirs, same, -⟩ := launched there kind its
  -- one job has one worker, which has one owner, who serves one conversation
  obtain rfl := (sound reached fresh).own.spread.workers jobId i k second worker also works same job
  obtain rfl := Option.some.inj (also.symm.trans works)
  exact held.apart _ n m other talk there found theirs own

/-- The message is told its own job. -/
theorem startFromCloud_own : ∃ (e : Edge) (k : Nat) (worker : Thread),
    Transition.run (Edge.step plainSite) {} startFromCloud = some e ∧
    e.world.threads[k]? = some worker ∧ worker.job.id = "00000000" ∧
    startRequest 10000 = .start worker.job.timeoutMs := by
  obtain ⟨e, talk, reached, found, thread⟩ := startFromCloud_run
  have announces : toldCall.Announces "00000000" :=
    ⟨202, some .running, some "ACCEPTED", List.mem_cons_self⟩
  obtain ⟨-, ⟨k, worker, works, job, asks⟩, -⟩ := announced_job_is_own plainSite startFromCloud e
    reached startFromCloud_fresh 0 talk toldCall found thread "00000000" announces (by decide)
  exact ⟨e, k, worker, reached, works, job, asks⟩

end Edge

end QrEdgeGateway
