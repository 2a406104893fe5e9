import QrEdgeGateway.Gateway
import QrEdgeGateway.Verif.Delivery
import QrEdgeGateway.Verif.Permanence
import QrEdgeGateway.Verif.StoreShape

/-!
# What the gateway reports

A poll that is answered with a terminal status quotes the record it was read from, and in runs
whose draws miss the store that record is final, so a report made from a poll is the outcome of
the job. The loop also ends at the gateway's own deadline, whatever the job does, and reports
`TIMEOUT`. The report is then right only if the job times out as well.
-/

namespace QrEdgeGateway

/-- A terminal status with the answer 200 quotes the record. -/
def Reply.Quotes (store : JobStore) (id : String) (reply : Reply) : Prop :=
  reply.status = 200 → ∀ status, reply.jobStatus = some status → status.Terminal →
    store.get id = some ⟨status, reply.message, reply.qr⟩

/-- A `/result` handler stands at one of its control points, and its answer quotes the record it
was asked for. -/
def Handler.Quotes (store : JobStore) (hd : Handler) : Prop :=
  ∀ id, hd.request = .result id →
    match hd.pc with
    | .looking asked => asked = id
    | .fetching asked => asked = id
    | .answered reply => reply.Quotes store id
    | _ => False

/-- A handler at another control point serves another request, and quotes nothing. -/
theorem Handler.Quotes.other {store after : JobStore} {request : Request} {pc pc' : RestPc}
    (quotes : Handler.Quotes store ⟨request, pc⟩) (elsewhere : pc.reads = false) :
    Handler.Quotes after ⟨request, pc'⟩ := by
  intro id asked
  have here := quotes id asked
  cases pc <;> simp_all [RestPc.reads]

namespace World

variable {w next : World} {event : Event} {events : List Event}

/-- What is quoted stays in the store. -/
theorem quotes_kept (held : Reserved w.store w.threads w.handlers)
    (fresh : w.redraws event = false) (taken : w.step event = some next)
    (quotes : Table.All w.handlers fun _ hd => hd.Quotes w.store) :
    Table.All w.handlers fun _ hd => hd.Quotes next.store := by
  refine quotes.mono fun h hd found here id asked => ?_
  have now := here id asked
  split at now
  · exact now
  · exact now
  · intro ok status polled terminal
    exact terminal_step held fresh taken (now ok status polled terminal) terminal
  · exact now

/-- Every step whose draw is new keeps every quotation right. -/
theorem quotes_step (held : Reserved w.store w.threads w.handlers)
    (fresh : w.redraws event = false) (taken : w.step event = some next)
    (quotes : Table.All w.handlers fun _ hd => hd.Quotes w.store) :
    Table.All next.handlers fun _ hd => hd.Quotes next.store := by
  have kept := quotes_kept held fresh taken quotes
  cases (step_move taken).2 with
  | arrive request =>
    refine kept.spawn fun id asked => ?_
    obtain rfl : request = .result id := asked
    rfl
  | terminate here same | work found agrees moved | write found moved written
  | writeFail found moved unwritten | clear found moved | finish found moved
  | dispatch moved => exact kept
  | look here present => exact kept.set fun id asked => quotes _ _ here id asked
  | miss here absent =>
    exact kept.set fun id asked ok => by simp [errorResponse] at ok
  | fetchFail here absent =>
    exact kept.set fun id asked ok => by simp [errorResponse] at ok
  | fetch here found =>
    refine kept.set fun id asked ok status polled terminal => ?_
    obtain rfl := quotes _ _ here id asked
    obtain rfl := Option.some.inj polled
    exact found
  | create rd here => exact kept.set ((quotes _ _ here).other rfl)
  | _ here => exact kept.set ((quotes _ _ here).other rfl)

/-- What the service keeps for the gateway: the records, who may write them, and the answers
that quote them. -/
structure Filed (w : World) : Prop where
  /-- The thread object is right. -/
  joinable : Joinable w.handle w.threads
  /-- Records to be written are pending. -/
  reserved : Reserved w.store w.threads w.handlers
  /-- Records are shaped. -/
  shapely : Shapely w.store w.threads
  /-- Answers quote records. -/
  quotes : Table.All w.handlers fun _ hd => hd.Quotes w.store

/-- The files are in order at the start. -/
theorem filed_init : Filed {} where
  joinable := ⟨by simp, by simp⟩
  reserved := ⟨by simp, by simp, fun id i j a b found => by simp at found, by simp⟩
  shapely := ⟨fun id res found => by simp [JobStore.get] at found, by simp⟩
  quotes := by simp

/-- Every step whose draw is new keeps the files in order. -/
theorem Filed.step (held : w.Filed) (fresh : w.redraws event = false)
    (taken : w.step event = some next) : next.Filed where
  joinable := held.joinable.step taken
  reserved := held.reserved.step held.joinable fresh taken
  shapely := held.shapely.step taken
  quotes := quotes_step held.reserved fresh taken held.quotes

/-- The handler number `h` serves this request. -/
def Asked (w : World) (h : Nat) (request : Request) : Prop :=
  Table.Any w.handlers fun i hd => i = h ∧ hd.request = request

/-- A handler keeps its request. -/
theorem Asked.step {h : Nat} {request : Request} (asked : w.Asked h request)
    (taken : w.step event = some next) : next.Asked h request := by
  cases (step_move taken).2 with
  | arrive request => exact Table.Any.spawn asked
  | terminate here same | work found agrees moved | write found moved written
  | writeFail found moved unwritten | clear found moved | finish found moved
  | dispatch moved => exact asked
  | create rd here => exact Table.Any.set asked here fun same => same
  | _ here => exact Table.Any.set asked here fun same => same

/-- A new handler serves the request that arrived. -/
theorem asked_arrived {request : Request} (taken : w.step (.request request) = some next) :
    next.Asked w.handlers.length request := by
  cases (step_move taken).2 with
  | arrive request => exact ⟨_, _, Table.get_spawn_last, rfl, rfl⟩

end World

namespace Bridge

variable {b next : Bridge} {event : BridgeEvent}

/-- This step draws an identifier the store already holds. -/
def redraws (b : Bridge) : BridgeEvent → Bool
  | .service event => b.world.redraws event
  | _ => false

/-- This step finds the polling deadline passed. -/
def expires (b : Bridge) : BridgeEvent → Bool
  | .time now =>
    match b.call.pc with
    | .head _ deadline => deadline ≤ now
    | _ => false
  | _ => false

/-- The report is the terminal record the store holds, with its message and its QR text. -/
def Reported (w : World) (report : JobReport) : Prop :=
  report.status.Terminal ∧ ∃ message, report.message = some message ∧
    w.store.get report.jobId = some ⟨report.status, message, report.qr⟩

/-- What the call relies on in the service. -/
structure Served (b : Bridge) : Prop where
  /-- The service's files are in order. -/
  filed : b.world.Filed
  /-- The handler waited for serves the poll. -/
  polling : ∀ jobId deadline h, b.call.pc = .waiting jobId deadline h →
    b.world.Asked h (.result jobId)

/-- The call has reported nothing but records. -/
def Honest (b : Bridge) : Prop :=
  ∀ report, .jobResult report ∈ b.call.published → Reported b.world report

/-- What has been reported stays true. -/
theorem Reported.step {w after : World} {event : Event} {report : JobReport}
    (reported : Reported w report) (filed : w.Filed) (fresh : w.redraws event = false)
    (taken : w.step event = some after) : Reported after report := by
  obtain ⟨terminal, message, same, stored⟩ := reported
  exact ⟨terminal, message, same, World.terminal_step filed.reserved fresh taken stored terminal⟩

/-- A call that waits for no poll is served. -/
theorem Served.idle {call : StartAndPoll} (served : b.Served)
    (idle : ∀ jobId deadline h, call.pc ≠ .waiting jobId deadline h) :
    Served { b with call } :=
  ⟨served.filed, fun jobId deadline h waits => absurd waits (idle jobId deadline h)⟩

/-- Every step whose draw is new keeps the call served. -/
theorem Served.step (served : b.Served) (fresh : b.redraws event = false)
    (taken : b.step event = some next) : next.Served := by
  cases step_move taken with
  | service moved =>
    exact ⟨served.filed.step fresh moved, fun jobId deadline h here =>
      (served.polling jobId deadline h here).step moved⟩
  | post here moved => exact ⟨served.filed.step rfl moved, by simp⟩
  | get here moved =>
    refine ⟨served.filed.step rfl moved, fun jobId deadline h waits => ?_⟩
    cases waits
    exact World.asked_arrived moved
  | loseStart here => exact served.idle (b.call.onStart_not_waiting _ _)
  | answerStart readable here found => exact served.idle (b.call.onStart_not_waiting _ _)
  | losePoll here => exact served.idle (b.call.onPoll_not_waiting _ _ _ _)
  | answerPoll readable here found => exact served.idle (b.call.onPoll_not_waiting _ _ _ _)
  | date now here => exact served.idle (by simp)
  | check now here => exact served.idle (b.call.onTime_not_waiting _ _ _)

/-- An answered poll that ends the loop tells the record. -/
theorem Served.told {jobId : String} {deadline : Int} {h : Nat} {request : Request}
    {reply : Reply} {readable : Bool} {status : JobStatus} (served : b.Served)
    (here : b.call.pc = .waiting jobId deadline h)
    (found : b.world.handlers[h]? = some ⟨request, .answered reply⟩) (code : reply.status = 200)
    (told : (safeJson readable reply).status = some status) (terminal : status.Terminal) :
    ∃ message, (safeJson readable reply).message = some message ∧
      b.world.store.get jobId = some ⟨status, message, (safeJson readable reply).qr⟩ := by
  obtain ⟨_, hd, there, rfl, asked⟩ := served.polling jobId deadline h here
  obtain rfl := Option.some.inj (there.symm.trans found)
  unfold safeJson at told ⊢
  split at told
  · rename_i readable
    rw [if_pos readable]
    exact ⟨reply.message, rfl,
      served.filed.quotes _ _ found jobId asked code status told terminal⟩
  · contradiction

/-- Until the deadline passes the call reports nothing but records. -/
theorem Honest.step (honest : b.Honest) (served : b.Served) (fresh : b.redraws event = false)
    (intime : b.expires event = false) (taken : b.step event = some next) : next.Honest := by
  intro report found
  cases step_move taken with
  | service moved => exact (honest report found).step served.filed fresh moved
  | post here moved => exact (honest report found).step served.filed rfl moved
  | get here moved => exact (honest report found).step served.filed rfl moved
  | loseStart here => exact honest report (StartAndPoll.report_of_onStart found)
  | answerStart readable here there =>
    exact honest report (StartAndPoll.report_of_onStart found)
  | losePoll here =>
    obtain old | ⟨code, -⟩ := StartAndPoll.report_of_onPoll found
    · exact honest report old
    · contradiction
  | answerPoll readable here there =>
    obtain old | ⟨code, told, terminal, rfl, said, carried⟩ := StartAndPoll.report_of_onPoll found
    · exact honest report old
    · refine ⟨terminal, ?_⟩
      rw [said, carried]
      exact served.told here there code told terminal
  | date now here => exact honest report found
  | @check polled due now here =>
    have early : now < due := by simpa [expires, here] using intime
    simp only [StartAndPoll.onTime, early, if_true] at found
    exact honest report found

/-- Until it returns the call has reported nothing. -/
def Unreported (b : Bridge) : Prop :=
  b.call.pc ≠ .returned → ∀ report, .jobResult report ∉ b.call.published

/-- Every step that reports returns. -/
theorem Unreported.step (silent : b.Unreported) (taken : b.step event = some next) :
    next.Unreported := by
  intro going report found
  cases step_move taken with
  | service moved => exact silent going report found
  | post here moved => exact silent (by simp [here]) report found
  | get here moved => exact silent (by simp [here]) report found
  | loseStart here =>
    refine silent ?_ report (StartAndPoll.report_of_onStart found)
    obtain here | ⟨h, here⟩ := here <;> simp [here]
  | answerStart readable here there =>
    exact silent (by simp [here]) report (StartAndPoll.report_of_onStart found)
  | @losePoll polled due here =>
    obtain same | ⟨status, code, -⟩ :=
      b.call.onPoll_cases polled due httpFailure.1 httpFailure.2
    · refine silent ?_ report (by simpa [same] using found)
      obtain here | ⟨h, here⟩ := here <;> simp [here]
    · contradiction
  | @answerPoll polled due _ _ reply readable here there =>
    obtain same | ⟨status, -, -, -, same⟩ :=
      b.call.onPoll_cases polled due reply.status (safeJson readable reply)
    · exact silent (by simp [here]) report (by simpa [same] using found)
    · exact going (by rw [same]; rfl)
  | date now here => exact silent (by simp [here]) report found
  | @check polled due now here =>
    unfold StartAndPoll.onTime at going found
    split at found
    · exact silent (by simp [here]) report found
    · rename_i late
      simp [late, StartAndPoll.publish] at going

/-- A call that has returned is over. -/
theorem call_of_returned (returned : b.call.pc = .returned) (taken : b.step event = some next) :
    next.call = b.call := by
  cases step_move taken with
  | service moved => rfl
  | loseStart here =>
    obtain here | ⟨h, here⟩ := here <;> simp [here] at returned
  | losePoll here =>
    obtain here | ⟨h, here⟩ := here <;> simp [here] at returned
  | post here moved => simp [here] at returned
  | get here moved => simp [here] at returned
  | answerStart readable here found => simp [here] at returned
  | answerPoll readable here found => simp [here] at returned
  | date now here => simp [here] at returned
  | check now here => simp [here] at returned

/-- Where the deadline passes the call publishes its own timeout and returns. -/
theorem call_of_expires (expired : b.expires event = true) (taken : b.step event = some next) :
    ∃ jobId, b.call.pc ≠ .returned ∧
      next.call = b.call.publish (.jobResult (b.call.pollTimeout jobId)) .returned := by
  cases step_move taken with
  | @check polled due now here =>
    have late : ¬ now < due := by simpa [expires, here] using expired
    exact ⟨polled, by simp [here], by simp [StartAndPoll.onTime, late]⟩
  | date now here => simp [expires, here] at expired
  | _ => contradiction

/-! ## Runs -/

section Runs

variable {id : String} {timeoutMs pollMax : Int} {events : List BridgeEvent} {final : Bridge}
  {report : JobReport}

/-- In every run whose draws are new the call is served. -/
theorem served
    (reached : Transition.run Bridge.step (start id timeoutMs pollMax) events = some final)
    (fresh : Transition.Along Bridge.step (fun b event => b.redraws event = false)
      (start id timeoutMs pollMax) events) : final.Served :=
  Transition.run_invariant Served (fun served fresh taken => served.step fresh taken)
    ⟨World.filed_init, by simp [start]⟩ reached fresh

/-- If the deadline never passes, every report is the record the store holds. -/
theorem reported_of_intime
    (reached : Transition.run Bridge.step (start id timeoutMs pollMax) events = some final)
    (fresh : Transition.Along Bridge.step (fun b event => b.redraws event = false)
      (start id timeoutMs pollMax) events)
    (intime : Transition.Along Bridge.step (fun b event => b.expires event = false)
      (start id timeoutMs pollMax) events)
    (found : .jobResult report ∈ final.call.published) : Reported final.world report := by
  have held := Transition.run_invariant (fun b : Bridge => b.Served ∧ b.Honest)
    (fun ⟨served, honest⟩ ⟨fresh, intime⟩ taken =>
      ⟨served.step fresh taken, honest.step served fresh intime taken⟩)
    ⟨served Transition.run_nil trivial, by simp [Honest, start]⟩ reached (fresh.and intime)
  exact held.2 report found

/-- If the deadline passes, the only report is the gateway's own timeout. -/
theorem timeout_of_expired
    (reached : Transition.run Bridge.step (start id timeoutMs pollMax) events = some final)
    (expired : ¬ Transition.Along Bridge.step (fun b event => b.expires event = false)
      (start id timeoutMs pollMax) events)
    (found : .jobResult report ∈ final.call.published) : report.status = .timeout := by
  obtain ⟨before, event, after, middle, rfl, there, late⟩ :=
    Transition.exists_violation reached expired
  rw [Transition.run_append, there] at reached
  obtain ⟨next, taken, onward⟩ := Transition.run_cons.mp reached
  -- nothing was reported before the deadline, and nothing is afterwards
  have silent : middle.Unreported := Transition.run_stable Unreported
    (fun silent taken => silent.step taken) (by simp [Unreported, Bridge.start]) there
  obtain ⟨jobId, going, published⟩ := call_of_expires (by simpa using late) taken
  have kept : final.call = next.call := Transition.run_stable
    (fun b : Bridge => b.call = next.call)
    (fun same taken => (call_of_returned (by rw [same, published]; rfl) taken).trans same)
    rfl onward
  rw [kept, published] at found
  obtain old | new := StartAndPoll.mem_publish.mp found
  · exact absurd old (silent going report)
  · cases new
    rfl

end Runs

/-- The gateway's report is right exactly if its deadline does not pass or the job times out. In
every run whose draws of `gen_id` miss the store: the published status is the terminal status
the store holds for the job, and a job that is done is published with its QR text, if and only
if no evaluation of the loop condition finds the polling deadline passed, or the job ends with
`TIMEOUT` as well. -/
theorem report_is_outcome_iff (id : String) (timeoutMs pollMax : Int)
    (events : List BridgeEvent) (final : Bridge)
    (reached : Transition.run Bridge.step (start id timeoutMs pollMax) events = some final)
    (fresh : Transition.Along Bridge.step (fun b event => b.redraws event = false)
      (start id timeoutMs pollMax) events)
    (report : JobReport) (published : .jobResult report ∈ final.call.published)
    (res : JobResult) (stored : final.world.store.get report.jobId = some res)
    (terminal : res.status.Terminal) :
    (report.status = res.status ∧
      (res.status = .done → ∃ qr, res.qr = some qr ∧ report.qr = some qr)) ↔
    (Transition.Along Bridge.step (fun b event => b.expires event = false)
      (start id timeoutMs pollMax) events ∨ res.status = .timeout) := by
  have shaped := (served reached fresh).filed.shapely.record report.jobId res stored
  constructor
  · rintro ⟨same, -⟩
    by_cases intime : Transition.Along Bridge.step (fun b event => b.expires event = false)
      (start id timeoutMs pollMax) events
    · exact .inl intime
    · exact .inr (same.symm.trans (timeout_of_expired reached intime published))
  · intro condition
    by_cases intime : Transition.Along Bridge.step (fun b event => b.expires event = false)
      (start id timeoutMs pollMax) events
    · obtain ⟨-, message, -, record⟩ := reported_of_intime reached fresh intime published
      obtain rfl := Option.some.inj (stored.symm.trans record)
      refine ⟨rfl, fun done => ?_⟩
      obtain ⟨qr, carried⟩ := shaped.qr_of_done done
      exact ⟨qr, carried, carried⟩
    · obtain timedOut := condition.resolve_left intime
      refine ⟨(timeout_of_expired reached intime published).trans timedOut.symm, fun done => ?_⟩
      rw [timedOut] at done
      contradiction

/-! ## Two jobs that find a code

One finds it while the gateway still polls, one after eight seconds of the ten it was given. -/

/-- The service alone takes these steps. -/
def alone (events : List Event) : List BridgeEvent := events.map .service

/-- The start request of the call is served and its answer received at time zero. -/
def startServed : List BridgeEvent :=
  alone (World.initCall 0) ++ .send :: alone ((World.startCall 1 1 fun _ => 0).drop 1) ++
    [.receive true, .time 0]

/-- The job reads the text `QR:` at this time and stores it. -/
def jobFinds (now : Int) : List BridgeEvent :=
  alone ((Obs.clock 0 :: (Job.passObs now [.data qrChunk] ++ [Obs.tau])).map (Event.job 0))

/-- One poll, made at this time and served by the handler `h`. -/
def polls (h : Nat) (now : Int) : List BridgeEvent :=
  [.time now, .send] ++ alone [.handler h, .handler h] ++ [.receive true]

/-- The job is done after one second and polled after two. -/
def promptRun : List BridgeEvent :=
  startServed ++ jobFinds 1000000000 ++ polls 2 2000000000

/-- The job is done after eight seconds; the gateway gives up after six. -/
def slowRun : List BridgeEvent :=
  startServed ++ polls 2 2000000000 ++ [.time 6000000000] ++ jobFinds 8000000000

/-- The prompt job is reported as it ends. -/
theorem promptRun_reported : ∃ (final : Bridge) (report : JobReport),
    Transition.run Bridge.step (start "c" 10000 6000000000) promptRun = some final ∧
    .jobResult report ∈ final.call.published ∧ report.jobId = "00000000" ∧
    report.status = .done ∧ ∃ qr, report.qr = some qr := by
  refine ⟨_, ⟨"c", some 200, true, "00000000", .done, some "OK", some .running, some qrPrefix⟩,
    rfl, by decide, rfl, ?_⟩
  have right := (report_is_outcome_iff "c" 10000 6000000000 promptRun _ rfl (by decide)
    ⟨"c", some 200, true, "00000000", .done, some "OK", some .running, some qrPrefix⟩ (by decide)
    ⟨.done, "OK", some qrPrefix⟩ (by decide) (by decide)).mpr (.inl (by decide))
  obtain ⟨status, carries⟩ := right
  obtain ⟨qr, -, carried⟩ := carries rfl
  exact ⟨status, qr, carried⟩

/-- The slow job is reported as `TIMEOUT` and ends as `DONE`. -/
theorem slowRun_misreported : ∃ (final : Bridge) (report : JobReport),
    Transition.run Bridge.step (start "c" 10000 6000000000) slowRun = some final ∧
    Transition.Along Bridge.step (fun b event => b.redraws event = false)
      (start "c" 10000 6000000000) slowRun ∧
    .jobResult report ∈ final.call.published ∧ report.jobId = "00000000" ∧
    report.status = .timeout ∧
    final.world.store.get "00000000" = some ⟨.done, "OK", some qrPrefix⟩ :=
  ⟨_, ⟨"c", none, false, "00000000", .timeout, some "ERR:POLL_TIMEOUT", none, none⟩, rfl,
    by decide, by decide, rfl, rfl, by decide⟩

end Bridge

end QrEdgeGateway
