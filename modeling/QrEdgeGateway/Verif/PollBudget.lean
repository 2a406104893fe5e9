import QrEdgeGateway.Schedule
import QrEdgeGateway.Verif.EndToEnd
import QrEdgeGateway.Verif.Promptness

/-!
# Job timeout and polling deadline

The gateway gives up on a job after `POLL_MAX_SECONDS`, whatever the job does. A job ends within
its timeout and 20 ms but for the time it loses, and the gateway looks at least once in each
`POLL_INTERVAL_SEC` but for the time the call loses. If a poll found the job unfinished, the job
has not yet used up its time, so the two deadlines cannot cross while the time lost by both stays
below what lies between them: the cloud is then told how the job really ended.
-/

namespace QrEdgeGateway

/-! ## Records of ended jobs -/

/-- A shaped record has a message. -/
theorem JobResult.Shaped.message_ne {res : JobResult} (shaped : res.Shaped) :
    res.message ≠ "" := by
  obtain rfl | ⟨qr, -, rfl⟩ | rfl | rfl := shaped <;> simp

/-- After `http_post` the call has returned or is about to set its deadline. -/
theorem StartAndPoll.onStart_pc (call : StartAndPoll) (sc : Nat) (j : Body) :
    (call.onStart sc j).pc = if sc ≠ 202 then .returned else .dating (j.jobId.getD "") := by
  unfold onStart
  split <;> rfl

namespace World

variable {w next : World} {event : Event} {id : String} {h : Nat}

/-- The job has a terminal record. -/
def Ended (w : World) (id : String) : Prop :=
  ∃ res, w.store.get id = some res ∧ res.status.Terminal

/-- It keeps it while draws are new. -/
theorem Ended.step (ended : w.Ended id) (own : w.Own) (fresh : w.redraws event = false)
    (taken : w.step event = some next) : next.Ended id := by
  obtain ⟨res, stored, terminal⟩ := ended
  exact ⟨res, terminal_step own.filed.reserved fresh taken stored terminal, terminal⟩

/-- Every worker that has stored its status has a terminal record. -/
def Booked (w : World) : Prop :=
  Table.All w.threads fun _ thread => thread.job.pc.written = true → w.Ended thread.job.id

/-- Every step whose draw is new keeps it. -/
theorem Booked.step (booked : w.Booked) (own : w.Own) (fresh : w.redraws event = false)
    (taken : w.step event = some next) : next.Booked := by
  have kept : Table.All w.threads fun _ thread =>
      thread.job.pc.written = true → next.Ended thread.job.id :=
    booked.mono fun k thread found ended written => (ended written).step own fresh taken
  unfold Booked
  cases (step_move taken).2 with
  | launch here free => exact kept.spawn (by simp [JobPc.written])
  | work found agrees moved =>
    have live : _ = false := (Job.of_silent moved).2.2.1
    exact kept.set fun written => absurd (live.symm.trans written) (by decide)
  | @write k thread job obs outcome store found moved written =>
    have stored := (JobStore.get_write written job.id).trans (if_pos rfl)
    exact kept.set fun _ => ⟨outcome.record, stored, outcome.record_terminal⟩
  | writeFail found moved unwritten =>
    -- the record of a worker is always there
    have present : (w.store.get _).isSome = true := own.recorded.worker _ _ found
    rw [← (Job.of_write moved).1, ← JobStore.write_isSome, unwritten] at present
    contradiction
  | clear found moved =>
    obtain ⟨same, here, -⟩ := Job.of_clear moved
    have ended := kept _ _ found (by simp [here, JobPc.written])
    exact kept.set fun _ => same.symm ▸ ended
  | finish found moved =>
    obtain ⟨same, here, -⟩ := Job.of_finish moved
    have ended := kept _ _ found (by simp [here, JobPc.written])
    exact kept.set fun _ => same.symm ▸ ended
  | _ => exact kept

/-- The job has ended, and the poll number `h` is about to say so. -/
structure Tells (id : String) (h : Nat) (w : World) : Prop where
  /-- The job has ended. -/
  ended : w.Ended id
  /-- The poll was made. -/
  asked : w.Asked h (.result id)
  /-- It looks up the job or has told its end. -/
  poll : Table.All w.handlers fun i hd => i = h →
    match hd.pc with
    | .looking other => other = id
    | .fetching other => other = id
    | .answered reply => reply.status = 200 ∧ reply.message ≠ "" ∧
        ∃ status, reply.jobStatus = some status ∧ status.Terminal
    | _ => False

/-- A poll for a job that has ended. -/
theorem tells_arrived (ended : w.Ended id)
    (taken : w.step (.request (.result id)) = some next) : next.Tells id w.handlers.length := by
  cases (step_move taken).2 with
  | arrive request =>
    refine ⟨ended, asked_arrived taken, fun i hd found last => ?_⟩
    obtain rfl := last
    obtain rfl : hd = ⟨.result id, (Request.result id).entry⟩ := by
      simpa using found.symm
    exact rfl

/-- Every step whose draw is new keeps the poll on its way. -/
theorem Tells.step (tells : w.Tells id h) (own : w.Own) (fresh : w.redraws event = false)
    (taken : w.step event = some next) : next.Tells id h := by
  obtain ⟨res, stored, terminal⟩ := tells.ended
  have poll := tells.poll
  refine ⟨tells.ended.step own fresh taken, tells.asked.step taken, ?_⟩
  cases (step_move taken).2 with
  | arrive request =>
    apply poll.spawn
    intro last
    have before := tells.asked.lt_length
    omega
  | look here there =>
    have same := poll _ _ here
    exact poll.set same
  | miss here absent | fetchFail here absent =>
    apply poll.set
    intro last
    obtain rfl : _ = id := poll _ _ here last
    rw [stored] at absent
    contradiction
  | fetch here found =>
    apply poll.set
    intro last
    obtain rfl : _ = id := poll _ _ here last
    obtain rfl := Option.some.inj (stored.symm.trans found)
    exact ⟨rfl, (own.filed.shapely.record _ _ stored).message_ne, _, rfl, terminal⟩
  | terminate here same | work found agrees moved | write found moved written
  | writeFail found moved unwritten | clear found moved | finish found moved
  | dispatch moved => exact poll
  | create rd here => exact poll.set fun last => (poll _ _ here last).elim
  | _ here => exact poll.set fun last => (poll _ _ here last).elim

end World

/-! ## Workers and their time -/

/-- What a step of the service or the call does to the workers. -/
theorem Bridge.threads_step {b after : Bridge} {event : BridgeEvent}
    (taken : b.step event = some after) :
    (∀ k obs, event ≠ .service (.job k obs)) ∧ after.world.threads = b.world.threads ∨
    (∀ k obs, event ≠ .service (.job k obs)) ∧ (∃ h id timeoutMs,
      after.world.threads = b.world.threads ++ [⟨h, { id, timeoutMs }⟩]) ∨
    ∃ k obs thread job, event = .service (.job k obs) ∧ b.world.threads[k]? = some thread ∧
      thread.job.next obs = some job ∧
      after.world.threads = b.world.threads.set k { thread with job } := by
  cases step_move taken with
  | service moved =>
    obtain ⟨other, same⟩ | ⟨other, spawned⟩ | ⟨k, obs, thread, job, rfl, works⟩ :=
      World.threads_step moved
    · exact .inl ⟨fun k obs same => other k obs (by simpa using same), same⟩
    · exact .inr (.inl ⟨fun k obs same => other k obs (by simpa using same), spawned⟩)
    · exact .inr (.inr ⟨k, obs, thread, job, rfl, works⟩)
  | post here moved | get here moved =>
    refine .inl ⟨by simp, ?_⟩
    cases (World.step_move moved).2
    rfl
  | _ => exact .inl ⟨by simp, rfl⟩

/-- The service moves by itself or for the call, and draws nothing in the latter case. -/
theorem Bridge.world_step {b after : Bridge} {event : BridgeEvent}
    (taken : b.step event = some after) : after.world = b.world ∨
      ∃ inner, (b.redraws event = false → b.world.redraws inner = false) ∧
        b.world.step inner = some after.world := by
  cases step_move taken with
  | service moved => exact .inr ⟨_, fun fresh => fresh, moved⟩
  | post here moved | get here moved => exact .inr ⟨_, fun _ => rfl, moved⟩
  | _ => exact .inl rfl

namespace Clocked

variable {c next : Clocked} {event : BridgeEvent × Nat} {reopenDelayMs pollInterval : Int}
  {k : Nat} {thread : Thread} {clock : WorkerClock}

/-- The worker number `k` and its time. -/
def Worker (c : Clocked) (k : Nat) (thread : Thread) (clock : WorkerClock) : Prop :=
  c.bridge.world.threads[k]? = some thread ∧ c.workers[k]? = some clock

/-- A step of the two with its time. -/
theorem step_iff : c.step reopenDelayMs pollInterval event = some next ↔
    event.1.shows next.now = true ∧ c.bridge.step event.1 = some next.bridge ∧
      next.now = c.now + event.2 ∧
      next.workers = c.workersAfter reopenDelayMs next.now next.bridge.world.threads.length
        event.1 ∧
      next.call = c.callAfter pollInterval next.now event.1 := by
  obtain ⟨bridge, now, workers, call⟩ := next
  unfold step
  dsimp only
  split
  · rename_i shows
    rw [Option.map_eq_some_iff]
    constructor
    · rintro ⟨after, moved, same⟩
      cases same
      exact ⟨shows, moved, rfl, rfl, rfl⟩
    · rintro ⟨-, moved, rfl, rfl, rfl⟩
      exact ⟨bridge, moved, rfl⟩
  · rename_i hidden
    constructor
    · intro impossible
      contradiction
    · rintro ⟨shows, -, rfl, -⟩
      exact absurd shows hidden

/-- Without a step of a worker there is at most a new one. -/
theorem workersAfter_other {now : Int} {count : Nat} {event : BridgeEvent}
    (other : ∀ k obs, event ≠ .service (.job k obs)) :
    c.workersAfter reopenDelayMs now count event =
      if c.workers.length < count then c.workers ++ [⟨now, now, 0⟩] else c.workers := by
  unfold workersAfter
  split
  · exact absurd rfl (other _ _)
  · rfl

/-- A worker is started, one moves, or none does. -/
theorem workers_step (aligned : c.workers.length = c.bridge.world.threads.length)
    (taken : c.step reopenDelayMs pollInterval event = some next) :
    next.bridge.world.threads = c.bridge.world.threads ∧ next.workers = c.workers ∨
    (∃ h id timeoutMs,
      next.bridge.world.threads = c.bridge.world.threads ++ [⟨h, { id, timeoutMs }⟩] ∧
      next.workers = c.workers ++ [⟨next.now, next.now, 0⟩]) ∨
    ∃ k obs thread job clock, c.Worker k thread clock ∧ obs.shows next.now = true ∧
      thread.job.next obs = some job ∧
      next.bridge.world.threads = c.bridge.world.threads.set k { thread with job } ∧
      next.workers = c.workers.set k (clock.after reopenDelayMs thread.job obs next.now) := by
  obtain ⟨shows, moved, -, workers, -⟩ := step_iff.mp taken
  obtain ⟨other, same⟩ | ⟨other, h, id, timeoutMs, spawned⟩ |
    ⟨k, obs, thread, job, own, found, works, moves⟩ := Bridge.threads_step moved
  · refine .inl ⟨same, ?_⟩
    rw [workers, workersAfter_other other, same, if_neg (by omega)]
  · refine .inr (.inl ⟨h, id, timeoutMs, spawned, ?_⟩)
    rw [workers, workersAfter_other other, spawned, List.length_append, List.length_singleton,
      if_pos (by omega)]
  · obtain ⟨clock, timed⟩ : ∃ clock, c.workers[k]? = some clock := by
      have inside := Table.lt_length found
      exact ⟨_, List.getElem?_eq_getElem (by omega)⟩
    refine .inr (.inr ⟨k, obs, thread, job, clock, ⟨found, timed⟩, ?_, works, moves, ?_⟩)
    · rw [own] at shows
      exact shows
    · rw [workers, own]
      simp [workersAfter, found, timed]

/-- A worker is one that was there, a new one, or one that has made a step. -/
theorem worker_cases (aligned : c.workers.length = c.bridge.world.threads.length)
    (taken : c.step reopenDelayMs pollInterval event = some next)
    (worker : next.Worker k thread clock) :
    c.Worker k thread clock ∨
    (∃ h id timeoutMs, thread = ⟨h, { id, timeoutMs }⟩ ∧ clock = ⟨next.now, next.now, 0⟩) ∨
    ∃ old before obs, c.Worker k old before ∧ obs.shows next.now = true ∧
      old.job.next obs = some thread.job ∧
      clock = before.after reopenDelayMs old.job obs next.now := by
  obtain ⟨found, timed⟩ := worker
  obtain ⟨threads, workers⟩ | ⟨h, id, timeoutMs, threads, workers⟩ |
    ⟨i, obs, old, job, before, there, shows, works, threads, workers⟩ := workers_step aligned taken
  · rw [threads] at found
    rw [workers] at timed
    exact .inl ⟨found, timed⟩
  · rw [threads] at found
    rw [workers] at timed
    obtain old | ⟨last, new⟩ := Table.get_spawn found
    · obtain before | ⟨last, -⟩ := Table.get_spawn timed
      · exact .inl ⟨old, before⟩
      · have inside := Table.lt_length old
        omega
    · obtain before | ⟨-, fresh⟩ := Table.get_spawn timed
      · have inside := Table.lt_length before
        omega
      · exact .inr (.inl ⟨h, id, timeoutMs, new, fresh⟩)
  · rw [threads] at found
    rw [workers] at timed
    obtain ⟨rfl, rfl⟩ | ⟨differs, was⟩ := Table.get_set found
    · obtain ⟨-, rfl⟩ | ⟨differs, -⟩ := Table.get_set timed
      · exact .inr (.inr ⟨old, before, obs, there, shows, works, rfl⟩)
      · exact absurd rfl differs
    · obtain ⟨same, -⟩ | ⟨-, did⟩ := Table.get_set timed
      · exact absurd same differs
      · exact .inl ⟨was, did⟩

/-- Every worker keeps its deadline, up to the time it has lost. -/
structure Paced (c : Clocked) : Prop where
  /-- Every worker has its time. -/
  aligned : c.workers.length = c.bridge.world.threads.length
  /-- Nothing is ahead of the time. -/
  past : ∀ k thread clock, c.Worker k thread clock → clock.start ≤ c.now ∧ clock.last ≤ c.now
  /-- Workers keep their deadlines. -/
  keeps : ∀ k thread clock, c.Worker k thread clock →
    Timed.Keeps clock.start ⟨thread.job, clock.last, clock.lost⟩

/-- Time passes. -/
theorem now_le (taken : c.step reopenDelayMs pollInterval event = some next) :
    c.now ≤ next.now := by
  obtain ⟨-, -, now, -⟩ := step_iff.mp taken
  omega

/-- A step of a worker is a step of its job with the time since its last one. -/
theorem timed_step (reopenDelayMs : Int) {old : Thread} {before : WorkerClock} {obs : Obs}
    {job : Job} {now : Int} (shows : obs.shows now = true) (moved : old.job.next obs = some job)
    (past : before.last ≤ now) :
    Timed.step reopenDelayMs ⟨old.job, before.last, before.lost⟩
      (obs, (now - before.last).toNat) =
      some ⟨job, now, (before.after reopenDelayMs old.job obs now).lost⟩ := by
  have spent : ((now - before.last).toNat : Int) = now - before.last := by omega
  have reaches : before.last + ((now - before.last).toNat : Int) = now := by omega
  refine Timed.step_iff.mpr ⟨?_, moved, reaches.symm, ?_⟩
  · rw [reaches]
    exact shows
  · simp only [WorkerClock.after, spent]

/-- Every step keeps the workers paced. -/
theorem Paced.step (paced : c.Paced)
    (taken : c.step reopenDelayMs pollInterval event = some next) : next.Paced := by
  have passes := now_le taken
  refine ⟨?_, fun k thread clock worker => ?_, fun k thread clock worker => ?_⟩
  · have aligned := paced.aligned
    obtain ⟨threads, workers⟩ | ⟨h, id, timeoutMs, threads, workers⟩ |
      ⟨i, obs, old, job, before, there, shows, works, threads, workers⟩ :=
        workers_step aligned taken <;> simp [threads, workers, aligned]
  · obtain same | ⟨h, id, timeoutMs, rfl, rfl⟩ | ⟨old, before, obs, there, shows, moved, rfl⟩ :=
      worker_cases paced.aligned taken worker
    · have past := paced.past k thread clock same
      omega
    · exact ⟨le_refl _, le_refl _⟩
    · have past := paced.past k old before there
      exact ⟨by simp only [WorkerClock.after]; omega, le_refl _⟩
  · obtain same | ⟨h, id, timeoutMs, rfl, rfl⟩ | ⟨old, before, obs, there, shows, moved, rfl⟩ :=
      worker_cases paced.aligned taken worker
    · exact paced.keeps k thread clock same
    · exact Timed.keeps_start id timeoutMs next.now
    · have past := (paced.past k old before there).2
      have reached : before.last ≤ next.now := by omega
      exact (paced.keeps k old before there).step (timed_step reopenDelayMs shows moved reached)

/-- At the time `x` the worker had not stored its status, or it has lost so much since it was
started that this may still have been in its time. -/
def Marked (c : Clocked) (k : Nat) (x : Int) : Prop :=
  x ≤ c.now ∧ ∀ thread clock, c.Worker k thread clock → thread.job.Live ∨
    x ≤ clock.start + (max 0 thread.job.timeoutMs + 20) * nsPerMs + clock.lost

/-- A mark that was right before a step, or is made by it, is right after it. -/
theorem marked_after {x : Int} (passed : x ≤ next.now)
    (seen : ∀ thread clock, c.Worker k thread clock → thread.job.Live ∨
      x ≤ clock.start + (max 0 thread.job.timeoutMs + 20) * nsPerMs + clock.lost)
    (paced : c.Paced) (taken : c.step reopenDelayMs pollInterval event = some next) :
    next.Marked k x := by
  refine ⟨passed, fun thread clock worker => ?_⟩
  obtain same | ⟨h, id, timeoutMs, rfl, rfl⟩ | ⟨old, before, obs, there, shows, moved, rfl⟩ :=
    worker_cases paced.aligned taken worker
  · exact seen thread clock same
  · exact .inl rfl
  · -- a step that stores the status comes after the mark and within the worker's time
    right
    have late := ((paced.step taken).keeps k thread _ worker).late
    simp only [WorkerClock.after] at late ⊢
    omega

/-- Whatever happens, a mark stays right. -/
theorem Marked.step {x : Int} (marked : c.Marked k x) (paced : c.Paced)
    (taken : c.step reopenDelayMs pollInterval event = some next) : next.Marked k x := by
  have passes := now_le taken
  have past := marked.1
  exact marked_after (by omega) marked.2 paced taken

/-- The worker number `k` has the job and was started by then. -/
def Employs (c : Clocked) (k : Nat) (jobId : String) (since : Int) : Prop :=
  ∃ thread clock, c.Worker k thread clock ∧ thread.job.id = jobId ∧ 0 ≤ thread.job.timeoutMs ∧
    clock.start ≤ since

/-- By then is also later. -/
theorem Employs.mono {jobId : String} {since later : Int} (employs : c.Employs k jobId since)
    (le : since ≤ later) : c.Employs k jobId later := by
  obtain ⟨thread, clock, worker, named, nonneg, early⟩ := employs
  exact ⟨thread, clock, worker, named, nonneg, by omega⟩

/-- A worker keeps its job. -/
theorem Employs.step {jobId : String} {since : Int} (employs : c.Employs k jobId since)
    (paced : c.Paced) (taken : c.step reopenDelayMs pollInterval event = some next) :
    next.Employs k jobId since := by
  obtain ⟨thread, clock, ⟨found, timed⟩, named, nonneg, early⟩ := employs
  obtain ⟨threads, workers⟩ | ⟨h, id, timeoutMs, threads, workers⟩ |
    ⟨i, obs, old, job, before, ⟨was, did⟩, shows, works, threads, workers⟩ :=
      workers_step paced.aligned taken
  · exact ⟨thread, clock, ⟨by rw [threads]; exact found, by rw [workers]; exact timed⟩, named,
      nonneg, early⟩
  · refine ⟨thread, clock, ⟨?_, ?_⟩, named, nonneg, early⟩
    · rw [threads]
      exact Table.get_spawn_old found
    · rw [workers]
      exact Table.get_spawn_old timed
  · by_cases same : k = i
    · subst same
      obtain rfl := Option.some.inj (found.symm.trans was)
      obtain rfl := Option.some.inj (timed.symm.trans did)
      obtain ⟨⟨after, effect⟩, stepped, rfl⟩ := Option.map_eq_some_iff.mp works
      have kept : 0 ≤ after.timeoutMs := by
        rw [Job.timeout_of_step stepped]
        exact nonneg
      refine ⟨{ thread with job := after }, clock.after reopenDelayMs thread.job obs next.now,
        ⟨?_, ?_⟩, (Job.step_cases stepped).1.trans named, kept, early⟩
      · rw [threads]
        exact Table.get_set_self found
      · rw [workers]
        exact Table.get_set_self timed
    · refine ⟨thread, clock, ⟨?_, ?_⟩, named, nonneg, early⟩
      · rw [threads, Table.get_set_other same]
        exact found
      · rw [workers, Table.get_set_other same]
        exact timed

/-! ## The call -/

/-- The call follows the job of the worker number `k`: when it last heard of it, at the time `x`
or where it set its deadline, it had at most its pause and the time lost behind it. -/
structure Follows (pollInterval pollMax : Int) (k : Nat) (jobId : String) (deadline x : Int)
    (c : Clocked) : Prop where
  /-- The worker was started before the deadline was set. -/
  employs : c.Employs k jobId (deadline - pollMax)
  /-- The job was unfinished, or nothing was heard of it yet. -/
  heard : c.Marked k x ∨ x = deadline - pollMax
  /-- What has passed since. -/
  waited : c.call.last + c.call.pause ≤ x + pollInterval + c.call.lost

/-- The polling deadline has passed: the worker or the call must have lost time. -/
def Overran (pollInterval pollMax : Int) (jobId : String) (c : Clocked) : Prop :=
  ∃ k x, c.Employs k jobId (x + pollInterval + c.call.lost - pollMax) ∧
    (c.Marked k x ∨ pollMax ≤ pollInterval + c.call.lost)

/-- What the call knows where it is. -/
def Phase (pollInterval pollMax : Int) (c : Clocked) : PollPc → Prop
  | .posting => True
  | .starting h => c.bridge.world.Asked h (startRequest c.bridge.call.timeoutMs)
  | .dating jobId => jobId ≠ "" → ∃ k, c.Employs k jobId c.now
  | .head jobId deadline => jobId ≠ "" → ∃ k x, c.Follows pollInterval pollMax k jobId deadline x
  | .getting jobId deadline =>
    jobId ≠ "" → ∃ k x, c.Follows pollInterval pollMax k jobId deadline x
  | .waiting jobId deadline h => jobId ≠ "" →
    ∃ k x, c.Follows pollInterval pollMax k jobId deadline x ∧
      ∃ sent, (c.Marked k sent ∨ c.bridge.world.Tells jobId h) ∧
        c.call.last + c.call.pause ≤ sent + c.call.lost
  | .returned => ∀ report, .jobResult report ∈ c.bridge.call.published → report.ok = false →
    report.jobId ≠ "" → c.Overran pollInterval pollMax report.jobId

/-- Where the call makes a step, its pause and the time lost lie behind it. -/
theorem after_now (clock : CallClock) (now pause : Int) :
    now + clock.lost ≤ clock.last + clock.pause + (clock.after now pause).lost ∧
      clock.lost ≤ (clock.after now pause).lost := by
  simp only [CallClock.after]
  omega

section Steps

variable {pollMax deadline x : Int} {jobId : String}

/-- The call goes on following a job while it hears nothing of it. -/
theorem Follows.step (follows : c.Follows pollInterval pollMax k jobId deadline x)
    (paced : c.Paced) (taken : c.step reopenDelayMs pollInterval event = some next)
    (unheard : next.call = c.call ∨ next.call = c.call.after next.now 0) :
    next.Follows pollInterval pollMax k jobId deadline x := by
  refine ⟨follows.employs.step paced taken, follows.heard.imp_left (·.step paced taken), ?_⟩
  have waited := follows.waited
  obtain same | same := unheard
  · rw [same]
    exact waited
  · have passed := after_now c.call next.now 0
    rw [same]
    simp only [CallClock.after] at passed ⊢
    omega

/-- A call that follows its job and finds its deadline passed has overrun. -/
theorem Follows.overran (follows : c.Follows pollInterval pollMax k jobId deadline x)
    (paced : c.Paced) (taken : c.step reopenDelayMs pollInterval event = some next)
    (unheard : next.call = c.call.after next.now 0) (passed : deadline ≤ next.now) :
    next.Overran pollInterval pollMax jobId := by
  have waited := follows.waited
  have behind := after_now c.call next.now 0
  rw [← unheard] at behind
  refine ⟨k, x, (follows.employs.step paced taken).mono (by omega), ?_⟩
  obtain marked | same := follows.heard
  · exact .inl (marked.step paced taken)
  · exact .inr (by omega)

/-- What has overrun stays so. -/
theorem Overran.step (overran : c.Overran pollInterval pollMax jobId) (paced : c.Paced)
    (taken : c.step reopenDelayMs pollInterval event = some next) (same : next.call = c.call) :
    next.Overran pollInterval pollMax jobId := by
  obtain ⟨k, x, employs, cause⟩ := overran
  unfold Overran
  rw [same]
  exact ⟨k, x, employs.step paced taken, cause.imp_left (·.step paced taken)⟩

end Steps

/-- What the polling deadline rests on in runs whose draws are new. -/
structure Tracked (pollInterval pollMax : Int) (c : Clocked) : Prop where
  /-- Workers keep their deadlines. -/
  paced : c.Paced
  /-- Jobs are apart. -/
  own : c.bridge.world.Own
  /-- Ended jobs have their records. -/
  booked : c.bridge.world.Booked
  /-- The call is served. -/
  served : c.bridge.Served
  /-- It reports records or its own timeout. -/
  truthful : c.bridge.Truthful
  /-- It reports once. -/
  silent : c.bridge.Unreported
  /-- It has not gained time. -/
  nonneg : 0 ≤ c.call.lost
  /-- It polls for so long. -/
  polls : c.bridge.call.pollMax = pollMax
  /-- It knows where its job stands. -/
  phase : c.Phase pollInterval pollMax c.bridge.call.pc

section Phases

variable {pollMax : Int}

/-- While the service moves the call knows what it knew. -/
theorem Phase.service {pc : PollPc} (phase : c.Phase pollInterval pollMax pc) (paced : c.Paced)
    (own : c.bridge.world.Own) {inner : Event} {spent : Nat}
    (fresh : c.bridge.world.redraws inner = false)
    (taken : c.step reopenDelayMs pollInterval (.service inner, spent) = some next) :
    next.Phase pollInterval pollMax pc := by
  obtain ⟨-, moved, -, -, same⟩ := step_iff.mp taken
  obtain ⟨after, worked, bridge⟩ := Option.map_eq_some_iff.mp moved
  have call : next.bridge.call = c.bridge.call := by rw [← bridge]
  have world : c.bridge.world.step inner = some next.bridge.world := by rw [worked, ← bridge]
  cases pc with
  | posting => trivial
  | starting h =>
    show next.bridge.world.Asked h (startRequest next.bridge.call.timeoutMs)
    rw [call]
    exact World.Asked.step phase world
  | dating jobId =>
    intro named
    obtain ⟨k, employs⟩ := phase named
    exact ⟨k, (employs.step paced taken).mono (now_le taken)⟩
  | head jobId deadline | getting jobId deadline =>
    intro named
    obtain ⟨k, x, follows⟩ := phase named
    exact ⟨k, x, follows.step paced taken (.inl same)⟩
  | waiting jobId deadline h =>
    intro named
    obtain ⟨k, x, follows, sent, told, since⟩ := phase named
    refine ⟨k, x, follows.step paced taken (.inl same), sent,
      told.imp (·.step paced taken) (·.step own fresh world), ?_⟩
    rw [same]
    exact since
  | returned =>
    intro report found failed named
    rw [call] at found
    exact (phase report found failed named).step paced taken same

/-- The job of an accepted start has its worker. -/
theorem employs_of_accepted {inner : List Event} {h : Nat} {request : Request} {reply : Reply}
    {readable : Bool} {jobId : String} {timeoutMs : Int} (paced : c.Paced)
    (ran : Transition.run World.step {} inner = some c.bridge.world)
    (asked : c.bridge.world.Asked h (startRequest timeoutMs))
    (found : c.bridge.world.handlers[h]? = some ⟨request, .answered reply⟩)
    (accepted : reply.status = 202)
    (same : jobId = (safeJson readable reply).jobId.getD "") (named : jobId ≠ "") :
    ∃ k, c.Employs k jobId c.now := by
  obtain ⟨k, worker, there, -, told, asks⟩ := World.worker_of_accepted ran found accepted
  have positive : 0 ≤ worker.job.timeoutMs := by
    have request := asks.symm.trans (asked.request_eq found)
    unfold startRequest at request
    split at request
    · contradiction
    · rename_i kept
      rw [Request.start.inj request]
      exact (not_le.mp kept).le
  obtain ⟨clock, timed⟩ : ∃ clock, c.workers[k]? = some clock := by
    have aligned := paced.aligned
    have inside := Table.lt_length there
    exact ⟨_, List.getElem?_eq_getElem (by omega)⟩
  have its := Option.some.inj (told.symm.trans (jobId_of_safeJson same named))
  exact ⟨k, worker, clock, ⟨there, timed⟩, its, positive, (paced.past k worker clock
    ⟨there, timed⟩).1⟩

/-- A poll finds the job unfinished, or will tell how it ended. -/
theorem marked_or_tells {jobId : String} {since : Int} {spent : Nat} (paced : c.Paced)
    (booked : c.bridge.world.Booked) (employs : c.Employs k jobId since)
    (taken : c.step reopenDelayMs pollInterval (.send, spent) = some next)
    (moved : c.bridge.world.step (.request (.result jobId)) = some next.bridge.world) :
    next.Marked k next.now ∨ next.bridge.world.Tells jobId c.bridge.world.handlers.length := by
  obtain ⟨thread, clock, worker, named, -⟩ := employs
  by_cases live : thread.job.Live
  · left
    refine marked_after (le_refl _) (fun other timed found => .inl ?_) paced taken
    obtain rfl := Option.some.inj (worker.1.symm.trans found.1)
    exact live
  · right
    have written : thread.job.pc.written = true := by simpa [Job.Live] using live
    have ended := booked k thread worker.1 written
    rw [named] at ended
    exact World.tells_arrived ended moved

/-- An answer that tells how the job ended, and is read, ends the polling. -/
theorem not_tells_of_head {jobId : String} {deadline : Int} {h : Nat} {request : Request}
    {reply : Reply} {call : StartAndPoll} {w : World}
    (found : w.handlers[h]? = some ⟨request, .answered reply⟩)
    (goes : call.onPoll jobId deadline reply.status (safeJson true reply) =
      { call with pc := .head jobId deadline }) : ¬ w.Tells jobId h := by
  intro tells
  obtain ⟨code, texts, status, told, terminal⟩ := tells.poll h _ found rfl
  have ends := congrArg StartAndPoll.pc goes
  simp [StartAndPoll.onPoll, StartAndPoll.publish, safeJson, Body.ofReply, code, texts, told,
    terminal] at ends

/-- An answered poll ends the polling, or found the job unfinished when it was made. -/
theorem Tracked.phase_answered {jobId : String} {deadline : Int} {h : Nat} {request : Request}
    {reply : Reply} {readable : Bool} {spent : Nat} (held : c.Tracked pollInterval pollMax)
    (here : c.bridge.call.pc = .waiting jobId deadline h)
    (found : c.bridge.world.handlers[h]? = some ⟨request, .answered reply⟩)
    (taken : c.step reopenDelayMs pollInterval (.receive readable, spent) = some next)
    (answered : next.bridge.call =
      c.bridge.call.onPoll jobId deadline reply.status (safeJson readable reply)) :
    next.Phase pollInterval pollMax next.bridge.call.pc := by
  obtain ⟨-, -, -, -, call⟩ := step_iff.mp taken
  have phase := held.phase
  have paced := held.paced
  rw [here] at phase
  obtain same | ⟨status, -, -, -, same⟩ :=
    c.bridge.call.onPoll_cases jobId deadline reply.status (safeJson readable reply)
  · rw [answered, same]
    intro named
    obtain ⟨k, x, follows, sent, told, since⟩ := phase named
    cases readable with
    | false =>
      simp only [callAfter] at call
      exact ⟨k, x, follows.step paced taken (.inr call)⟩
    | true =>
      simp only [callAfter, here] at call
      have marked := told.resolve_right (not_tells_of_head found same)
      refine ⟨k, sent, follows.employs.step paced taken, .inl (marked.step paced taken), ?_⟩
      have passed := after_now c.call next.now pollInterval
      simp only [call, CallClock.after] at passed ⊢
      omega
  · rw [same] at answered
    rw [answered]
    intro report published failed
    rw [answered] at published
    obtain old | new := StartAndPoll.mem_publish.mp published
    · exact absurd old (held.silent (by simp [here]) report)
    · cases new
      contradiction

/-- At its loop condition the call goes on following the job or has overrun. -/
theorem Tracked.phase_checked {jobId : String} {deadline reading : Int} {spent : Nat}
    (held : c.Tracked pollInterval pollMax) (here : c.bridge.call.pc = .head jobId deadline)
    (taken : c.step reopenDelayMs pollInterval (.time reading, spent) = some next)
    (checked : next.bridge.call = c.bridge.call.onTime jobId deadline reading) :
    next.Phase pollInterval pollMax next.bridge.call.pc := by
  obtain ⟨shows, -, -, -, call⟩ := step_iff.mp taken
  have phase := held.phase
  have paced := held.paced
  have read : reading = next.now := by simpa [BridgeEvent.shows] using shows
  rw [here] at phase
  simp only [callAfter, here] at call
  unfold StartAndPoll.onTime at checked
  split at checked
  · rw [checked]
    intro named
    obtain ⟨k, x, follows⟩ := phase named
    exact ⟨k, x, follows.step paced taken (.inr call)⟩
  · rw [checked]
    intro report published failed named
    rw [checked] at published
    obtain old | new := StartAndPoll.mem_publish.mp published
    · exact absurd old (held.silent (by simp [here]) report)
    · cases new
      obtain ⟨k, x, follows⟩ := phase named
      exact follows.overran paced taken call (by omega)

/-- Every step whose draw is new tells the call where its job stands. -/
theorem Tracked.phase_step {inner : List Event} (held : c.Tracked pollInterval pollMax)
    (sleeps : 0 ≤ pollInterval) (ran : Transition.run World.step {} inner = some c.bridge.world)
    (fresh : c.bridge.redraws event.1 = false)
    (taken : c.step reopenDelayMs pollInterval event = some next) :
    next.Phase pollInterval pollMax next.bridge.call.pc := by
  obtain ⟨event, spent⟩ := event
  obtain ⟨bridge, now, workers, clock⟩ := next
  obtain ⟨shows, moved, -, -, call⟩ := step_iff.mp taken
  have phase := held.phase
  have paced := held.paced
  dsimp only at shows moved call fresh ⊢
  cases Bridge.step_move moved with
  | service worked => exact phase.service paced held.own fresh taken
  | post here worked => exact World.asked_arrived worked
  | get here worked =>
    rw [here] at phase
    simp only [callAfter] at call
    intro named
    obtain ⟨k, x, follows⟩ := phase named
    refine ⟨k, x, follows.step paced taken (.inr call), now,
      marked_or_tells paced held.booked follows.employs taken worked, ?_⟩
    have nonneg := held.nonneg
    have passed := after_now c.call now 0
    simp only [call, CallClock.after] at passed ⊢
    omega
  | loseStart here =>
    intro report found
    refine absurd (StartAndPoll.report_of_onStart found) (held.silent ?_ report)
    obtain here | ⟨h, here⟩ := here <;> simp [here]
  | @answerStart h request reply readable here found =>
    rw [here] at phase
    rw [StartAndPoll.onStart_pc]
    split
    · intro report told
      exact absurd (StartAndPoll.report_of_onStart told) (held.silent (by simp [here]) report)
    · rename_i accepted
      intro named
      obtain ⟨k, employs⟩ := employs_of_accepted paced ran phase found (by simpa using accepted)
        rfl named
      exact ⟨k, (employs.step paced taken).mono (now_le taken)⟩
  | @losePoll jobId deadline here =>
    obtain same | ⟨status, code, -⟩ :=
      c.bridge.call.onPoll_cases jobId deadline httpFailure.1 httpFailure.2
    · rw [congrArg StartAndPoll.pc same]
      simp only [callAfter] at call
      intro named
      obtain ⟨k, x, follows⟩ : ∃ k x, c.Follows pollInterval pollMax k jobId deadline x := by
        obtain here | ⟨h, here⟩ := here
        · rw [here] at phase
          exact phase named
        · rw [here] at phase
          obtain ⟨k, x, follows, -⟩ := phase named
          exact ⟨k, x, follows⟩
      exact ⟨k, x, follows.step paced taken (.inr call)⟩
    · contradiction
  | answerPoll readable here found => exact held.phase_answered here found taken rfl
  | @date jobId reading here =>
    rw [here] at phase
    simp only [callAfter, here] at call
    obtain rfl : reading = now := by simpa [BridgeEvent.shows] using shows
    intro named
    obtain ⟨k, employs⟩ := phase named
    have polls := held.polls
    have passes : c.now ≤ reading := now_le taken
    refine ⟨k, reading, (employs.step paced taken).mono (by omega), .inr (by omega), ?_⟩
    simp only [call]
    omega
  | check reading here => exact held.phase_checked here taken rfl

/-- The call gains no time. -/
theorem callAfter_nonneg {inner : BridgeEvent} {now : Int} (nonneg : 0 ≤ c.call.lost) :
    0 ≤ (c.callAfter pollInterval now inner).lost := by
  unfold callAfter
  split
  · exact nonneg
  · exact le_refl _
  · exact nonneg.trans (after_now _ _ _).2
  · exact nonneg.trans (after_now _ _ _).2

/-- Every step whose draw is new keeps it. -/
theorem Tracked.step {inner : List Event} (held : c.Tracked pollInterval pollMax)
    (sleeps : 0 ≤ pollInterval) (ran : Transition.run World.step {} inner = some c.bridge.world)
    (fresh : c.bridge.redraws event.1 = false)
    (taken : c.step reopenDelayMs pollInterval event = some next) :
    next.Tracked pollInterval pollMax := by
  obtain ⟨-, moved, -, -, call⟩ := step_iff.mp taken
  have jobs : next.bridge.world.Own ∧ next.bridge.world.Booked := by
    obtain same | ⟨event, new, worked⟩ := Bridge.world_step moved
    · rw [same]
      exact ⟨held.own, held.booked⟩
    · exact ⟨held.own.step (new fresh) worked, held.booked.step held.own (new fresh) worked⟩
  exact ⟨held.paced.step taken, jobs.1, jobs.2, held.served.step fresh moved,
    held.truthful.step held.served fresh moved, held.silent.step moved,
    by rw [call]; exact callAfter_nonneg held.nonneg,
    (Bridge.args_step moved).2.2.trans held.polls, held.phase_step sleeps ran fresh taken⟩

end Phases

section Runs

variable {id : String} {timeoutMs pollMax : Int} {events : List (BridgeEvent × Nat)}

/-- A run of the two under their clock is a run of the service. -/
theorem world_run (reached : Transition.run (Clocked.step reopenDelayMs pollInterval)
      (start id timeoutMs pollMax) events = some c) :
    ∃ inner, Transition.run World.step {} inner = some c.bridge.world := by
  refine Transition.run_component (fun c : Clocked => c.bridge.world) (fun taken => ?_) reached
  obtain ⟨-, moved, -⟩ := step_iff.mp taken
  exact (Bridge.world_step moved).imp_right fun ⟨inner, _, worked⟩ => ⟨inner, worked⟩

/-- Nothing has happened yet. -/
theorem tracked_start (pollInterval : Int) (id : String) (timeoutMs pollMax : Int) :
    (start id timeoutMs pollMax).Tracked pollInterval pollMax where
  paced := ⟨rfl, fun k thread clock worker => by simp [Worker, start, Bridge.start] at worker,
    fun k thread clock worker => by simp [Worker, start, Bridge.start] at worker⟩
  own := World.own_start
  booked := by simp [World.Booked, start, Bridge.start]
  served := ⟨World.filed_init, by simp [start, Bridge.start]⟩
  truthful := by simp [Bridge.Truthful, start, Bridge.start]
  silent := by simp [Bridge.Unreported, start, Bridge.start]
  nonneg := le_refl _
  polls := rfl
  phase := trivial

/-- In every run whose draws are new the call knows where its job stands. -/
theorem tracked (sleeps : 0 ≤ pollInterval)
    (reached : Transition.run (Clocked.step reopenDelayMs pollInterval)
      (start id timeoutMs pollMax) events = some c)
    (fresh : Transition.Along (Clocked.step reopenDelayMs pollInterval)
      (fun c event => c.bridge.redraws event.1 = false) (start id timeoutMs pollMax) events) :
    c.Tracked pollInterval pollMax := by
  refine Transition.run_reachable (Tracked pollInterval pollMax)
    (fun ran held new taken => ?_) (tracked_start pollInterval id timeoutMs pollMax) reached fresh
  obtain ⟨inner, worked⟩ := world_run ran
  exact held.step sleeps worked new taken

/-- In runs whose draws of `gen_id` miss the store, the two deadlines of a job agree but for time
lost. A result that the gateway publishes for a job that has ended is the job's own record, and
not the gateway's `ERR:POLL_TIMEOUT`, if `timeout_ms` and 20 ms, `POLL_INTERVAL_SEC`, what the
worker lost since it was started and what the call lost since it set its deadline stay below
`POLL_MAX_SECONDS` together. The call loses what its polls take, and the sleep behind a poll that
is lost or cannot be read. -/
theorem outcome_told_unless_time_lost (reopenDelayMs pollInterval : Int)
    (sleeps : 0 ≤ pollInterval) (id : String) (timeoutMs pollMax : Int)
    (events : List (BridgeEvent × Nat)) (c : Clocked)
    (reached : Transition.run (Clocked.step reopenDelayMs pollInterval)
      (start id timeoutMs pollMax) events = some c)
    (fresh : Transition.Along (Clocked.step reopenDelayMs pollInterval)
      (fun c event => c.bridge.redraws event.1 = false) (start id timeoutMs pollMax) events)
    (report : JobReport) (told : .jobResult report ∈ c.bridge.call.published)
    (named : report.jobId ≠ "") (k : Nat) (thread : Thread) (clock : WorkerClock)
    (worker : c.Worker k thread clock) (its : thread.job.id = report.jobId)
    (ended : thread.job.pc.written = true)
    (slack : (thread.job.timeoutMs + 20) * nsPerMs + pollInterval + clock.lost + c.call.lost <
      pollMax) : report.ok = true ∧ Bridge.Reported c.bridge.world report := by
  have held := tracked sleeps reached fresh
  obtain right | timeout := held.truthful report told
  · exact right
  exfalso
  have returned : c.bridge.call.pc = .returned := by
    by_contra going
    exact held.silent going report told
  have phase := held.phase
  rw [returned] at phase
  have failed : report.ok = false := by
    rw [timeout]
    rfl
  obtain ⟨i, x, ⟨other, timed, there, same, nonneg, early⟩, cause⟩ :=
    phase report told failed named
  -- the job has one worker
  obtain rfl := held.own.spread.workers report.jobId i k other thread there.1 worker.1 same its
  obtain rfl := Option.some.inj (there.1.symm.trans worker.1)
  obtain rfl := Option.some.inj (there.2.symm.trans worker.2)
  have lost : 0 ≤ timed.lost := (held.paced.keeps i other timed there).nonneg
  unfold nsPerMs at slack
  obtain marked | quick := cause
  · obtain live | late := marked.2 other timed there
    · rw [live] at ended
      contradiction
    · unfold nsPerMs at late
      omega
  · omega

/-- These events, so long after what was before and at once. -/
def later (spent : Nat) : List BridgeEvent → List (BridgeEvent × Nat)
  | [] => []
  | event :: rest => (event, spent) :: rest.map (·, 0)

/-- A job of one second finds its code at once, and the gateway polls after 300 ms. -/
def timelyRun : List (BridgeEvent × Nat) :=
  later 0 (Bridge.startServed ++ Bridge.jobFinds 0) ++ later 300000000 (Bridge.polls 2 300000000)

/-- Its record is told. -/
theorem timelyRun_told : ∃ (c : Clocked) (report : JobReport),
    Transition.run (Clocked.step 1000 300000000) (start "c" 1000 6000000000) timelyRun = some c ∧
    report.jobId = "00000000" ∧ report.ok = true ∧ Bridge.Reported c.bridge.world report := by
  refine ⟨_, ⟨"c", some 200, true, "00000000", .done, some "OK", some .running, some qrPrefix⟩,
    rfl, rfl, ?_⟩
  exact outcome_told_unless_time_lost 1000 300000000 (by decide) "c" 1000 6000000000
    timelyRun _ rfl (by decide)
    ⟨"c", some 200, true, "00000000", .done, some "OK", some .running, some qrPrefix⟩ (by decide)
    (by decide) 0 _ ⟨0, 0, 0⟩ ⟨rfl, by decide +kernel⟩ rfl rfl (by decide +kernel)

end Runs

end Clocked

end QrEdgeGateway
