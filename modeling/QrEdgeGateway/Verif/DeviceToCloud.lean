import Mathlib.Data.List.GetD
import QrEdgeGateway.Deployment
import QrEdgeGateway.Verif.DeviceStream
import QrEdgeGateway.Verif.EndToEnd
import QrEdgeGateway.Verif.NextStart

/-!
# From the device to the cloud

One worker at a time has the port, so what a call collects is one piece of what the device sends,
whatever jobs came before and whatever was lost between them. A text in the store, in a reply or in
a published result is therefore held by the end of a frame, and it is the payload in every run of
the deployment exactly for the payloads for which a single job cannot be misled. And since a call
that returns a frame has read its delimiter, no frame serves two jobs.
-/

namespace QrEdgeGateway

/-! ## A worker at the line -/

section Line

variable {s consumed block : Bytes} {pc : JobPc} {j k : Job} {obs : Obs}

/-- A block stays one when more is sent. -/
theorem Block.extend (found : Block s block) (more : Bytes) : Block (s ++ more) block := by
  obtain ⟨clean, fits, before, after, rfl⟩ := found
  exact ⟨clean, fits, before, after ++ more, by simp⟩

/-- What a worker has stays right when more is sent. -/
theorem JobPc.Traced.extend (traced : pc.Traced s consumed) (more : Bytes) :
    pc.Traced (s ++ more) consumed := by
  cases pc with
  | reading r => exact traced
  | closed got enc => exact fun received => (traced received).extend more
  | decoding got enc => exact fun received => (traced received).extend more
  | storing outcome =>
    cases outcome with
    | done qr =>
      obtain ⟨enc, found, accepted⟩ := traced
      exact ⟨enc, found.extend more, accepted⟩
    | _ => trivial
  | _ => trivial

/-- With the port closed it does not matter how much has been consumed. -/
theorem JobPc.Traced.elsewhere (traced : pc.Traced s consumed) (closed : pc.portOpen = false)
    (other : Bytes) : pc.Traced s other := by
  cases pc with
  | reading r => contradiction
  | storing outcome => cases outcome <;> exact traced
  | _ => exact traced

/-- A step of the job consumes what it reads. -/
theorem Job.traced_next (traced : j.pc.Traced s consumed) (moved : j.next obs = some k)
    (there : consumed ++ streamOf obs.reads <+: s) :
    k.pc.Traced s (consumed ++ streamOf obs.reads) := by
  obtain ⟨rest, whole⟩ := there
  have stream : s = consumed ++ streamOf (obs.reads ++ bytewise rest) := by
    have joined : streamOf (obs.reads ++ bytewise rest) = streamOf obs.reads ++ rest := by
      rw [streamOf, List.flatMap_append]
      exact congrArg (streamOf obs.reads ++ ·) (streamOf_bytewise rest)
    rw [joined, ← whole, List.append_assoc]
  have taken : Fed.step ⟨j, obs.reads ++ bytewise rest⟩ obs = some ⟨k, bytewise rest⟩ :=
    Fed.step_iff.mpr ⟨moved, rfl⟩
  obtain ⟨more, split, after⟩ := Fed.traced_step stream traced taken
  rw [streamOf_bytewise, ← whole] at split
  rw [List.append_cancel_right split]
  exact after

end Line

/-! ## Workers of the service -/

/-- Only a worker reads from the line. -/
theorem EdgeEvent.reads_eq_nil {event : EdgeEvent}
    (other : ∀ k obs, event ≠ .service (.job k obs)) : event.reads = [] := by
  unfold reads Event.reads
  split
  · split
    · exact absurd rfl (other _ _)
    · rfl
  · rfl

/-- The same of a step of the two programs. -/
theorem Edge.threads_step {site : Site} {e next : Edge} {event : EdgeEvent}
    (taken : e.step site event = some next) :
    (∀ k obs, event ≠ .service (.job k obs)) ∧ next.world.threads = e.world.threads ∨
    (∀ k obs, event ≠ .service (.job k obs)) ∧ (∃ h id timeoutMs,
      next.world.threads = e.world.threads ++ [⟨h, { id, timeoutMs }⟩]) ∨
    ∃ k obs thread job, event = .service (.job k obs) ∧ e.world.threads[k]? = some thread ∧
      thread.job.next obs = some job ∧
      next.world.threads = e.world.threads.set k { thread with job } := by
  cases event with
  | service event =>
    obtain ⟨world, moved, rfl⟩ := Option.map_eq_some_iff.mp taken
    obtain ⟨other, same⟩ | ⟨other, spawned⟩ | ⟨k, obs, thread, job, rfl, works⟩ :=
      World.threads_step moved
    · exact .inl ⟨fun k obs same => other k obs (by simpa using same), same⟩
    · exact .inr (.inl ⟨fun k obs same => other k obs (by simpa using same), spawned⟩)
    · exact .inr (.inr ⟨k, obs, thread, job, rfl, works⟩)
  | message payload clockMs =>
    cases taken
    exact .inl ⟨by simp, rfl⟩
  | talk m act =>
    refine .inl ⟨by simp, ?_⟩
    obtain same | ⟨request, moved⟩ | ⟨inner, impossible, -⟩ := world_step taken
    · rw [same]
    · generalize next.world = after at moved ⊢
      cases (World.step_move moved).2
      rfl
    · contradiction

/-! ## Texts -/

/-- The text of the reply, once there is one. -/
def RestPc.text : RestPc → Option Bytes
  | .answered reply => reply.qr
  | _ => none

/-- A request has no text. -/
theorem Request.text_entry (request : Request) : request.entry.text = none := by
  obtain entry | entry | ⟨_, entry⟩ | ⟨_, entry⟩ | entry := request.entry_cases <;>
    rw [entry] <;> rfl

/-- `JobRunner::stop` gives none. -/
@[simp] theorem Request.text_afterStop (request : Request) : request.afterStop.text = none := by
  cases request <;> rfl

/-- The core answers without a text. -/
theorem Core.qr_handleSyncCommand (core : Core) (cmd : String) :
    (core.handleSyncCommand cmd).2.qr = none := by
  unfold handleSyncCommand
  dsimp only
  repeat' split
  all_goals rfl

/-- Whatever the task is. -/
theorem Task.qr_execute {π : Type} (task : Task π) (core : Core) :
    (task.execute core).2.qr = none := by
  unfold execute
  split
  · exact core.qr_handleSyncCommand task.command
  · split
    · unfold Core.startJob
      cases core.st <;> rfl
    · split
      · unfold Core.finishJob
        cases core.st <;> rfl
      · rfl

/-- So do the handlers that pass its answer on. -/
theorem Request.text_onResponse (request : Request) {r : Response} (silent : r.qr = none) :
    (request.onResponse r).text = none := by
  cases request with
  | start timeoutMs =>
    unfold onResponse
    dsimp only
    split <;> rfl
  | stop => rfl
  | _ => exact silent

namespace World

variable {w next : World} {event : Event} {good : Bytes → Prop}

/-- Every text in the store and in the replies is good. -/
structure Texts (good : Bytes → Prop) (w : World) : Prop where
  /-- Records. -/
  stored : ∀ id record qr, w.store.get id = some record → record.qr = some qr → good qr
  /-- Replies. -/
  told : Table.All w.handlers fun _ hd => ∀ qr, hd.pc.text = some qr → good qr

/-- A step keeps the texts good while the workers have good ones to store. -/
theorem Texts.step (texts : w.Texts good) (answers : Answers w.disp w.handlers)
    (workers : Table.All w.threads fun _ thread =>
      ∀ qr, thread.job.pc = .storing (.done qr) → good qr)
    (taken : w.step event = some next) : next.Texts good := by
  cases (step_move taken).2 with
  | arrive request =>
    exact ⟨texts.stored, texts.told.spawn (by simp [request.text_entry])⟩
  | @receive h request r here ready =>
    obtain ⟨task, core, -, rfl⟩ := answers.own here ready
    have silent := request.text_onResponse (task.qr_execute core)
    exact ⟨texts.stored, texts.told.set (by simp [silent])⟩
  | fetch here found =>
    exact ⟨texts.stored, texts.told.set fun qr told => texts.stored _ _ qr found told⟩
  | create rd here =>
    refine ⟨fun id record qr found told => ?_, texts.told.set (by simp [RestPc.text])⟩
    have created : (w.store.create (genId rd)).get id = some record := found
    rw [JobStore.get_create] at created
    split at created
    · cases created
      contradiction
    · exact texts.stored id record qr created told
  | @write k thread job obs outcome store there moved written =>
    refine ⟨fun id record qr found told => ?_, texts.told⟩
    rw [JobStore.get_write written] at found
    split at found
    · obtain rfl := Option.some.inj found
      cases outcome with
      | done text =>
        obtain rfl : text = qr := Option.some.inj told
        exact workers k thread there text (Job.of_write moved).2.1
      | _ => contradiction
    · exact texts.stored id record qr found told
  | work found agrees moved | writeFail found moved unwritten | clear found moved
  | finish found moved | dispatch moved | terminate here same => exact ⟨texts.stored, texts.told⟩
  | idle here free | join here same found exited => exact ⟨texts.stored, texts.told.set (by simp)⟩
  | _ here => exact ⟨texts.stored, texts.told.set (by simp [RestPc.text, errorResponse])⟩

end World

namespace Edge

variable {site : Site} {e next : Edge} {event : EdgeEvent} {good : Bytes → Prop}

/-- Every text in the service and in the published results is good. -/
structure Texts (good : Bytes → Prop) (e : Edge) : Prop where
  /-- The service. -/
  world : e.world.Texts good
  /-- Results. -/
  published : Table.All e.talks fun _ talk => ∀ call report qr, talk.thread = .start call →
    .jobResult report ∈ call.published → report.qr = some qr → good qr

/-- A body has no text but that of its reply. -/
theorem qr_safeJson {readable : Bool} {reply : Reply} {qr : Bytes}
    (told : (safeJson readable reply).qr = some qr) : reply.qr = some qr := by
  unfold safeJson at told
  split at told
  · exact told
  · contradiction

/-- A polling call publishes texts of replies only. -/
theorem published_step {b after : Bridge} {act : BridgeEvent} (texts : b.world.Texts good)
    (held : ∀ report qr, .jobResult report ∈ b.call.published → report.qr = some qr → good qr)
    (moved : b.step act = some after) (report : JobReport) (qr : Bytes)
    (published : .jobResult report ∈ after.call.published) (told : report.qr = some qr) :
    good qr := by
  cases Bridge.step_move moved with
  | service taken | post here taken | get here taken | date now here =>
    exact held report qr published told
  | loseStart here | answerStart readable here there =>
    exact held report qr (StartAndPoll.report_of_onStart published) told
  | losePoll here =>
    obtain old | ⟨code, -⟩ := StartAndPoll.report_of_onPoll published
    · exact held report qr old told
    · contradiction
  | @answerPoll polled due h request reply readable here there =>
    obtain old | ⟨-, -, -, -, -, same⟩ := StartAndPoll.report_of_onPoll published
    · exact held report qr old told
    · rw [same] at told
      exact texts.told h _ there qr (qr_safeJson told)
  | @check polled due now here =>
    unfold StartAndPoll.onTime at published
    split at published
    · exact held report qr published told
    · obtain old | new := StartAndPoll.mem_publish.mp published
      · exact held report qr old told
      · cases new
        contradiction

/-- A step keeps the texts good while the workers have good ones to store. -/
theorem Texts.step (texts : e.Texts good) (answers : World.Answers e.world.disp e.world.handlers)
    (workers : Table.All e.world.threads fun _ thread =>
      ∀ qr, thread.job.pc = .storing (.done qr) → good qr)
    (taken : e.step site event = some next) : next.Texts good where
  world := by
    obtain same | ⟨request, moved⟩ | ⟨inner, -, moved⟩ := world_step taken
    · rw [same]
      exact texts.world
    · exact texts.world.step answers workers moved
    · exact texts.world.step answers workers moved
  published := by
    intro m later found call report qr thread published told
    obtain ⟨id, timeoutMs, rfl⟩ | ⟨talk, running, here, was, rfl | rfl | ⟨act, moved⟩⟩ :=
      stems_step taken m later found call thread
    · simp at published
    · exact texts.published m talk here call report qr was published told
    · exact texts.published m talk here running report qr was published told
    · exact published_step texts.world (fun report qr => texts.published m talk here running report
        qr was) moved report qr published told

end Edge

/-! ## The deployment -/

/-- A text that an end of the frame holds. -/
def Held (payload qr : Bytes) : Prop :=
  Passes payload ∧ ∃ rest, rest <:+ wireFrame payload ∧ acceptFrame rest = some qr

/-- What is stored from a framed connection is held by an end of the frame. -/
theorem Emission.held {payload sent block qr : Bytes} (emission : Emission payload sent)
    (found : Block sent block) (accepted : acceptFrame block = some qr) : Held payload qr := by
  obtain ⟨clean, -, before, after, shape⟩ := found
  obtain ⟨passes, ends, -⟩ := emission.split clean shape
  exact ⟨passes, block, ends, accepted⟩

/-- What was sent on a connection stays sent. -/
theorem Device.connections_grow {d next : Device} {event : DeviceEvent}
    (taken : d.step event = some next) (i : Nat) :
    d.connections.getD i [] <+: next.connections.getD i [] := by
  cases step_move taken with
  | sent here fits some_ =>
    unfold connections
    dsimp only
    obtain before | behind := Nat.lt_or_ge i d.closed.length
    · exact ⟨[], by
        rw [List.append_nil, List.getD_append _ _ _ _ before, List.getD_append _ _ _ _ before]⟩
    · rw [List.getD_append_right _ _ _ _ behind, List.getD_append_right _ _ _ _ behind]
      cases i - d.closed.length with
      | zero => exact List.prefix_append _ _
      | succ more => exact List.prefix_rfl
  | close here =>
    unfold connections
    dsimp only
    obtain before | behind := Nat.lt_or_ge i (d.closed ++ [d.current]).length
    · exact ⟨[], by rw [List.append_nil, List.getD_append _ _ _ _ before]⟩
    · rw [List.getD_eq_default _ _ behind]
      exact List.nil_prefix
  | _ => exact List.prefix_rfl

namespace Deployment

variable {site : Site} {d next : Deployment} {event : DeploymentEvent}
  {events : List DeploymentEvent} {payload : Bytes} {client : Nat}

/-- A run of the deployment is a run of the device. -/
theorem device_run
    (reached : Transition.run (step site) { device := { payload }, client } events = some d) :
    ∃ own, Transition.run Device.step { payload } own = some d.device := by
  refine Transition.run_component Deployment.device (fun taken => ?_) reached
  cases step_move taken with
  | device moved => exact .inr ⟨_, moved⟩
  | edge there moved => exact .inl rfl
  | flush unused there => exact .inl rfl

/-- It is a run of the service and the gateway. -/
theorem edge_run
    (reached : Transition.run (step site) { device := { payload }, client } events = some d) :
    ∃ own, Transition.run (Edge.step site) {} own = some d.edge := by
  refine Transition.run_component Deployment.edge (fun taken => ?_) reached
  cases step_move taken with
  | device moved => exact .inl rfl
  | edge there moved => exact .inr ⟨_, moved⟩
  | flush unused there => exact .inl rfl

/-- What has left the line. -/
def left (d : Deployment) : Bytes := d.sent.take d.gone

/-- What leaves the line with a step. -/
def leaving (d : Deployment) : DeploymentEvent → Bytes
  | .device _ => []
  | .edge event => streamOf event.reads
  | .flush n => d.line.take n

/-- A step lets the next bytes leave the line, and what was sent stays sent. -/
theorem left_step (within : d.gone ≤ d.sent.length) (taken : d.step site event = some next) :
    next.gone ≤ next.sent.length ∧ d.sent <+: next.sent ∧
      next.left = d.left ++ d.leaving event := by
  have leaves : ∀ {n : Nat}, n ≤ d.line.length → d.gone + n ≤ d.sent.length := by
    intro n there
    rw [line, List.length_drop] at there
    omega
  cases step_move taken with
  | @device event device moved =>
    obtain ⟨more, grown⟩ := Device.connections_grow moved d.client
    have sent : Deployment.sent { d with device } = d.sent ++ more := grown.symm
    refine ⟨?_, ⟨more, grown⟩, ?_⟩
    · rw [sent, List.length_append]
      exact Nat.le_add_right_of_le within
    · rw [left, sent, List.take_append_of_le_length within]
      exact (List.append_nil _).symm
  | @edge event edge there moved =>
    refine ⟨leaves there.length_le, List.prefix_rfl, ?_⟩
    show d.sent.take (d.gone + (streamOf event.reads).length) = d.left ++ streamOf event.reads
    rw [List.take_add, left]
    congr 1
    exact (List.prefix_iff_eq_take.mp there).symm
  | @flush n unused there => exact ⟨leaves there, List.prefix_rfl, List.take_add⟩

/-- What every worker has comes from the line. -/
structure Sourced (d : Deployment) : Prop where
  /-- Only what was sent can leave the line. -/
  within : d.gone ≤ d.sent.length
  /-- What a call has collected is what left the line last. -/
  workers : Table.All d.edge.world.threads fun _ thread => thread.job.pc.Traced d.sent d.left

/-- Every step keeps it, as one worker at a time has the port. -/
theorem Sourced.step (held : d.Sourced)
    (joinable : World.Joinable d.edge.world.handle d.edge.world.threads)
    (taken : d.step site event = some next) : next.Sourced := by
  obtain ⟨within, ⟨more, sent⟩, leaves⟩ := left_step held.within taken
  have kept : Table.All d.edge.world.threads fun _ thread =>
      thread.job.pc.Traced next.sent d.left := by
    rw [← sent]
    exact held.workers.mono fun k thread found traced => traced.extend more
  have inside : d.left ++ d.leaving event <+: next.sent := by
    rw [← leaves]
    exact List.take_prefix _ _
  refine ⟨within, ?_⟩
  rw [leaves]
  cases step_move taken with
  | device moved => simpa [leaving] using kept
  | flush unused there =>
    refine kept.mono fun k thread found traced => traced.elsewhere ?_ _
    simpa using List.any_eq_false.mp unused thread (List.mem_of_getElem? found)
  | edge there moved =>
    obtain ⟨other, same⟩ | ⟨other, h, id, timeoutMs, spawned⟩ |
      ⟨k, obs, thread, job, rfl, found, works, moves⟩ := Edge.threads_step moved
    · simpa [leaving, EdgeEvent.reads_eq_nil other, streamOf, same] using kept
    · rw [spawned]
      refine Table.All.spawn ?_ trivial
      simpa [leaving, EdgeEvent.reads_eq_nil other, streamOf] using kept
    · rw [moves]
      intro i other entry
      obtain ⟨rfl, rfl⟩ | ⟨differs, old⟩ := Table.get_set entry
      · exact Job.traced_next (kept i thread found) works inside
      · have exited : other.job.pc = .exited := by
          by_contra running
          have unfinished : thread.job.Unfinished := by
            obtain ⟨⟨_, _⟩, stepped, -⟩ := Option.map_eq_some_iff.mp works
            exact Job.unfinished_of_step stepped
          have one := joinable.sole k thread found unfinished
          have two := joinable.sole i other old running
          exact differs (Option.some.inj (two.symm.trans one))
        rw [exited]
        trivial

/-- What the bridge has received is framed. -/
theorem emission_sent {own : List DeviceEvent}
    (device : Transition.run Device.step { payload } own = some d.device) :
    Emission payload d.sent := by
  unfold sent
  rw [List.getD_eq_getElem?_getD]
  cases found : d.device.connections[d.client]? with
  | none => exact .nothing
  | some bytes => exact Device.emission_of_connection device (List.mem_of_getElem? found)

/-- Every text in the service and in the published results is held by an end of the frame. -/
structure Quotes (payload : Bytes) (d : Deployment) : Prop where
  /-- Workers read from the line. -/
  sourced : d.Sourced
  /-- Texts come from workers. -/
  texts : d.edge.Texts (Held payload)

/-- In every run of the deployment it is so. -/
theorem quotes
    (reached : Transition.run (step site) { device := { payload }, client } events = some d) :
    d.Quotes payload := by
  refine Transition.run_reachable (Quotes payload) ?_ ⟨⟨Nat.zero_le _, by simp⟩, ?_⟩ reached
    Transition.along_true
  · intro past middle event after ran held _ taken
    obtain ⟨own, device⟩ := device_run ran
    obtain ⟨both, edge⟩ := edge_run ran
    obtain ⟨inner, service⟩ := Edge.world_run edge
    refine ⟨held.sourced.step (World.joinable service) taken, ?_⟩
    have workers : Table.All middle.edge.world.threads fun _ thread =>
        ∀ qr, thread.job.pc = .storing (.done qr) → Held payload qr := by
      intro k thread found qr storing
      have traced : thread.job.pc.Traced middle.sent middle.left :=
        held.sourced.workers k thread found
      rw [storing] at traced
      obtain ⟨block, inside, accepted⟩ := traced
      exact (emission_sent device).held inside accepted
    cases step_move taken with
    | device moved => exact held.texts
    | edge there moved => exact held.texts.step (World.told service).answers workers moved
    | flush unused there => exact held.texts
  · exact ⟨⟨by simp [JobStore.get], by simp⟩, by simp⟩

end Deployment

/-! ## A run that misleads

If some end of the frame holds another text, a job stores it after the bytes before it are lost
between two jobs. -/

/-- A round loads the flag while it is set. -/
theorem Round.agrees_obs (round : Round) : ∀ obs ∈ round.obs, obs.agrees true = true := by
  cases round <;> simp [Round.obs, Obs.agrees]

/-- So does a pass. -/
theorem Job.agrees_passObs (now : Int) (rounds : List Round) :
    ∀ obs ∈ passObs now rounds, obs.agrees true = true := by
  intro obs member
  simp only [passObs, List.mem_append, List.mem_flatMap] at member
  obtain (first | ⟨round, -, inside⟩) | last := member
  · revert obs
    simp [Obs.agrees]
  · exact round.agrees_obs obs inside
  · revert obs
    simp [Obs.agrees]

/-- A job that has stored its outcome cannot become live again. -/
theorem Job.live_of_run {j k : Job} {obs : List Obs} (ran : Transition.run Job.next j obs = some k)
    (live : k.Live) : j.Live := by
  by_contra stored
  have written : k.pc.written = true := by
    refine Transition.run_stable (fun job : Job => job.pc.written = true) ?_ ?_ ran
    · intro job obs after held moved
      obtain ⟨⟨_, effect⟩, stepped, rfl⟩ := Option.map_eq_some_iff.mp moved
      exact Job.written_of_step stepped held
    · simpa [Live] using stored
  rw [live] at written
  contradiction

namespace World

/-- A worker of the service does what the job does alone, while the flag is set and until it
stores its outcome. -/
theorem run_worker {w : World} {k : Nat} {thread : Thread} {job : Job} {obs : List Obs}
    (alive : w.aborted = false) (running : w.running = true)
    (found : w.threads[k]? = some thread) (agrees : ∀ one ∈ obs, one.agrees true = true)
    (ran : Transition.run Job.next thread.job obs = some job) (live : job.Live) :
    Transition.run World.step w (obs.map (Event.job k)) =
      some { w with threads := w.threads.set k { thread with job } } := by
  induction obs generalizing w thread with
  | nil =>
    obtain rfl := Option.some.inj ran
    rw [Table.set_same found]
    rfl
  | cons one rest ih =>
    obtain ⟨next, moved, onward⟩ := Transition.run_cons.mp ran
    obtain ⟨⟨after, effect⟩, stepped, same⟩ := Option.map_eq_some_iff.mp moved
    obtain rfl : after = next := same
    have lives : after.pc.written = false := Job.live_of_run onward live
    obtain rfl : effect = .silent := by
      obtain ⟨-, ⟨silent, -⟩ | ⟨_, -, -, on⟩ | ⟨-, -, on⟩ | ⟨-, -, on⟩⟩ := Job.step_cases stepped
      · exact silent
      all_goals simp [on, JobPc.written] at lives
    have taken : w.step (.job k one) =
        some { w with threads := w.threads.set k { thread with job := after } } := by
      simp [World.step, alive, jobStep, found, running, agrees one (by simp), stepped, applyEffect]
    have later := ih (w := { w with threads := w.threads.set k { thread with job := after } })
      alive running (Table.get_set_self found) (fun other member => agrees other (by simp [member]))
      onward
    rw [List.map_cons, Transition.run_cons]
    refine ⟨_, taken, ?_⟩
    rw [later]
    simp

end World

namespace Deployment

variable {site : Site} {d : Deployment}

/-- What the device does alone it does in the deployment. -/
theorem run_device {events : List DeviceEvent} {device : Device}
    (ran : Transition.run Device.step d.device events = some device) :
    Transition.run (step site) d (events.map .device) = some { d with device } := by
  induction events generalizing d with
  | nil =>
    obtain rfl := Option.some.inj ran
    rfl
  | cons event rest ih =>
    obtain ⟨next, moved, onward⟩ := Transition.run_cons.mp ran
    have later := ih (d := { d with device := next }) onward
    exact Transition.run_cons.mpr ⟨{ d with device := next }, by simp [step, moved], later⟩

/-- So does the service, with what it reads on the line. -/
theorem run_service {events : List Event} {world : World}
    (ran : Transition.run World.step d.edge.world events = some world)
    (there : streamOf (events.flatMap Event.reads) <+: d.line) :
    Transition.run (step site) d (events.map fun event => .edge (.service event)) =
      some { d with
        edge := { d.edge with world },
        gone := d.gone + (streamOf (events.flatMap Event.reads)).length } := by
  induction events generalizing d with
  | nil =>
    obtain rfl := Option.some.inj ran
    rfl
  | cons event rest ih =>
    obtain ⟨next, moved, onward⟩ := Transition.run_cons.mp ran
    have split : streamOf ((event :: rest).flatMap Event.reads) =
        streamOf event.reads ++ streamOf (rest.flatMap Event.reads) := by simp [streamOf]
    rw [split] at there ⊢
    obtain ⟨tail, whole⟩ := there
    have first : streamOf event.reads <+: d.line := ⟨_, by rw [← List.append_assoc, whole]⟩
    let after : Deployment := { d with
      edge := { d.edge with world := next }, gone := d.gone + (streamOf event.reads).length }
    have taken : step site d (.edge (.service event)) = some after := by
      simp [step, EdgeEvent.reads, first, Edge.step, moved, after]
    have behind : after.line = streamOf (rest.flatMap Event.reads) ++ tail := by
      have dropped : after.line = d.line.drop (streamOf event.reads).length := List.drop_drop.symm
      rw [dropped, ← whole, List.append_assoc, List.drop_left]
    have later := ih (d := after) onward ⟨tail, behind.symm⟩
    refine Transition.run_cons.mpr ⟨after, taken, later.trans ?_⟩
    simp [after, Nat.add_assoc]

end Deployment

/-- A job that begins to read at an end of the frame stores what it holds. -/
theorem Job.run_to_end {rest qr : Bytes} (clean : (0 : UInt8) ∉ rest)
    (fits : rest.length ≤ maxFrame) (accepted : acceptFrame rest = some qr) (id : String) :
    ∃ (timeoutMs : Int) (obs : List Obs) (j : Job),
      Transition.run Job.next { id, timeoutMs } obs = some j ∧ j.id = id ∧
      j.pc = .storing (.done qr) ∧ (∀ one ∈ obs, one.agrees true = true) ∧
      streamOf (obs.flatMap Obs.reads) = rest ++ [0] := by
  let timeoutMs : Int := 50 * rest.length + 100
  let j : Job := { id, timeoutMs, deadline := 0 + timeoutMs * nsPerMs, pc := .head }
  have remaining : (j.deadline - 0) / nsPerMs = timeoutMs := by
    show (0 + timeoutMs * 1000000 - 0) / 1000000 = timeoutMs
    omega
  have positive : 0 < timeoutMs := by omega
  have entered : Reader.enter ((j.deadline - 0) / nsPerMs) = { remaining := timeoutMs } := by
    rw [remaining]
    exact Reader.again_of_pos positive
  have nonempty : rest.isEmpty = false := by
    cases rest with
    | nil => contradiction
    | cons byte more => rfl
  obtain ⟨left, read⟩ := Reader.run_rounds (blockRounds rest) (.single 0)
    { remaining := timeoutMs } rfl (bytes_block rest) clean (by simpa using fits) (by
      show Reader.stepMs * ((blockRounds rest).length : Int) < timeoutMs
      simp only [blockRounds, List.length_map, Reader.stepMs, timeoutMs]
      omega)
  rw [List.nil_append, nonempty, ← entered] at read
  have early : (0 : Int) < j.deadline := by
    show 0 < 0 + timeoutMs * 1000000
    omega
  have passed := Job.run_pass (j := j) rfl early (by rw [remaining]; exact positive) read accepted
  have started : Transition.run Job.next { id, timeoutMs } [.clock 0] = some j := rfl
  refine ⟨timeoutMs, _, _, Transition.run_trans started passed, rfl, rfl, ?_, ?_⟩
  · intro one member
    obtain first | inside := List.mem_append.mp member
    · obtain rfl := List.mem_singleton.mp first
      rfl
    · exact Job.agrees_passObs _ _ one inside
  · rw [List.flatMap_append, reads_block]
    exact streamOf_bytewise _

namespace World

/-- One job is started; its worker observes this and stores its outcome. -/
def oneJob (timeoutMs : Int) (obs : List Obs) : List Event :=
  initCall 0 ++ startCall 1 timeoutMs (fun _ => 0) ++ (obs ++ [Obs.tau]).map (Event.job 0)

/-- It reads what its worker reads. -/
theorem reads_oneJob (timeoutMs : Int) (obs : List Obs) :
    (oneJob timeoutMs obs).flatMap Event.reads = obs.flatMap Obs.reads := by
  have works : ((obs ++ [Obs.tau]).map (Event.job 0)).flatMap Event.reads =
      obs.flatMap Obs.reads := by
    rw [List.flatMap_map]
    show (obs ++ [Obs.tau]).flatMap Obs.reads = obs.flatMap Obs.reads
    rw [List.flatMap_append]
    exact List.append_nil _
  rw [oneJob, List.flatMap_append, works]
  rfl

/-- The service with one job started. -/
theorem started_run (timeoutMs : Int) : ∃ w,
    Transition.run World.step {} (initCall 0 ++ startCall 1 timeoutMs fun _ => 0) = some w ∧
    w.aborted = false ∧ w.running = true ∧
    w.threads[0]? = some ⟨1, { id := genId fun _ => 0, timeoutMs }⟩ ∧
    (w.store.get (genId fun _ => 0)).isSome = true := ⟨_, rfl, rfl, rfl, rfl, rfl⟩

/-- What the job of a single start stores, the store has in the end. -/
theorem run_to_record {timeoutMs : Int} {obs : List Obs} {j : Job} {outcome : Outcome}
    (ran : Transition.run Job.next { id := genId fun _ => 0, timeoutMs } obs = some j)
    (same : j.id = genId fun _ => 0) (storing : j.pc = .storing outcome)
    (agrees : ∀ one ∈ obs, one.agrees true = true) : ∃ w,
    Transition.run World.step {} (oneJob timeoutMs obs) = some w ∧
    w.store.get (genId fun _ => 0) = some outcome.record := by
  obtain ⟨w, started, alive, running, found, present⟩ := started_run timeoutMs
  have live : j.Live := by simp [Job.Live, storing, JobPc.written]
  have worked := run_worker alive running found agrees ran live
  obtain ⟨store, written⟩ : ∃ store, w.store.write j.id outcome = some store := by
    rw [← Option.isSome_iff_exists, JobStore.write_isSome, same]
    exact present
  have stepped : j.step .tau = some ({ j with pc := .clearing }, .write outcome) := by
    simp [Job.step, storing]
  have stored := JobStore.get_write written (genId fun _ => 0)
  rw [if_pos same.symm] at stored
  have last : World.step { w with threads := w.threads.set 0 ⟨1, j⟩ } (.job 0 .tau) =
      some { w with threads := w.threads.set 0 ⟨1, { j with pc := .clearing }⟩, store } := by
    simp [World.step, alive, jobStep, Table.get_set_self found, Obs.agrees, stepped, applyEffect,
      written]
  rw [oneJob, List.map_append]
  exact ⟨_, Transition.run_trans started (Transition.run_trans worked
    (Transition.run_cons.mpr ⟨_, last, rfl⟩)), stored⟩

end World

namespace Deployment

/-- A text that an end of the frame holds is in the store after some run. -/
theorem exists_misled {payload qr : Bytes} (site : Site) (held : Held payload qr) :
    ∃ client events d,
      Transition.run (step site) { device := { payload }, client } events = some d ∧
      ∃ id record, d.edge.world.store.get id = some record ∧ record.qr = some qr := by
  obtain ⟨passes, rest, ⟨before, whole⟩, accepted⟩ := held
  have clean : (0 : UInt8) ∉ rest := fun zero => wireFrame_clean payload (by simp [← whole, zero])
  have fits : rest.length ≤ maxFrame := by
    have bound := wireFrame_fits passes
    rw [← whole, List.length_append] at bound
    omega
  obtain ⟨device, sends, member⟩ := oneFrame_sent passes
  obtain ⟨client, found⟩ := List.getElem?_of_mem member
  obtain ⟨timeoutMs, obs, j, ran, same, storing, agrees, stream⟩ :=
    Job.run_to_end clean fits accepted (genId fun _ => 0)
  obtain ⟨w, served, stored⟩ := World.run_to_record ran same storing agrees
  have sent : Deployment.sent { device, client } = before ++ (rest ++ [0]) := by
    simp [Deployment.sent, found, ← whole]
  have lost : step site { device, client } (.flush before.length) =
      some { device, client, gone := before.length } := by
    have enough : before.length ≤ (Deployment.line { device, client }).length := by
      rw [line, sent]
      simp
    simp [step, inUse, enough]
  have left : Deployment.line { device, client, gone := before.length } = rest ++ [0] := by
    show List.drop before.length (Deployment.sent { device, client }) = rest ++ [0]
    rw [sent, List.drop_left]
  have there : streamOf ((World.oneJob timeoutMs obs).flatMap Event.reads) <+:
      Deployment.line { device, client, gone := before.length } :=
    ⟨[], by rw [World.reads_oneJob, stream, left, List.append_nil]⟩
  have finds := @run_service site { device, client, gone := before.length } _ _ served there
  exact ⟨client, _, _, Transition.run_trans (run_device sends)
    (Transition.run_cons.mpr ⟨_, lost, finds⟩), _, _, stored, rfl⟩

/-- No text in the store, in a reply or in a published result is another one than the payload. The
texts are compared as the bytes of the service; the event of a result carries them as the string
that `site.text` reads from them. -/
def Tells (payload : Bytes) (d : Deployment) : Prop :=
  (∀ id record qr, d.edge.world.store.get id = some record → record.qr = some qr →
    qr = payload) ∧
  (∀ (h : Nat) request reply qr, d.edge.world.handlers[h]? = some ⟨request, .answered reply⟩ →
    reply.qr = some qr → qr = payload) ∧
  ∀ (m : Nat) talk call report qr, d.edge.talks[m]? = some talk → talk.thread = .start call →
    .jobResult report ∈ call.published → report.qr = some qr → qr = payload

/-- The cloud is told the payload of the device and no other text, exactly for unambiguous
payloads. In every run of the device, the line, the service and the gateway, whatever jobs and
clients there are, however the frames are sent, lost and read, every text in a record, in a reply
and in a published result is the payload, if and only if the payload is too large to be sent at
all or every end of its frame that holds a text holds the payload. -/
theorem cloud_told_payload_iff (site : Site) (payload : Bytes) :
    (∀ (client : Nat) (events : List DeploymentEvent) (d : Deployment),
      Transition.run (step site) { device := { payload }, client } events = some d →
      d.Tells payload) ↔ (Passes payload → Unambiguous payload) := by
  constructor
  · intro safe passes rest qr ends accepted
    obtain ⟨client, events, d, reached, id, record, stored, told⟩ :=
      exists_misled site ⟨passes, rest, ends, accepted⟩
    exact (safe client events d reached).1 id record qr stored told
  · intro unambiguous client events d reached
    have right : ∀ qr, Held payload qr → qr = payload := fun qr ⟨passes, rest, ends, accepted⟩ =>
      unambiguous passes rest qr ends accepted
    have texts := (quotes reached).texts
    refine ⟨fun id record qr stored told => ?_, fun h request reply qr answered told => ?_,
      fun m talk call report qr found thread published told => ?_⟩
    · exact right qr (texts.world.stored id record qr stored told)
    · exact right qr (texts.world.told h _ answered qr told)
    · exact right qr (texts.published m talk found call report qr thread published told)

end Deployment

end QrEdgeGateway
