import QrEdgeGateway.Service
import QrEdgeGateway.Verif.Promptness

/-!
# How long a stop waits

`JobRunner::stop` clears `running_` and joins the worker. A worker that finds the flag cleared
leaves every loop it is in, so it makes only a few more steps, and at most one of them waits: a
`poll` of at most 50 ms, the pause of 20 ms, or the sleep behind a failed `open`, which the stop
cannot interrupt and which lasts up to `REOPEN_DELAY_MS`.
-/

namespace QrEdgeGateway

/-- The most steps a job can still make while the flag is cleared. -/
def Job.stepsLeft (j : Job) : Nat :=
  match j.pc with
  | .exited => 0
  | .finishing => 1
  | .clearing => 2
  | .storing _ => 3
  | .head => 4
  | .closed _ _ => 4
  | .decoding _ _ => 5
  | .entry => 5
  | .opening _ => 6
  | .clock => 7
  | .reading reader =>
    match reader.pc with
    | .head => 5
    | .polled _ => 5
    | .polling => 6
    | .reading => 6
    | .returned _ => 5

/-- The most milliseconds a job can still wait while the flag is cleared. -/
def Job.waitsMs (reopenDelayMs : Int) (j : Job) : Int :=
  match j.pc with
  | .decoding _ _ => Job.retryMs
  | .opening remainingMs => Job.sleepMs reopenDelayMs remainingMs
  | .clock => max 0 reopenDelayMs
  | .reading reader =>
    match reader.pc with
    | .polling => max 0 reader.waitMs
    | _ => 0
  | _ => 0

namespace Job

variable {j k : Job} {obs : Obs} {effect : Effect} {reopenDelayMs : Int}

/-- A job has at most seven steps left. -/
theorem stepsLeft_le (j : Job) : j.stepsLeft ≤ 7 := by
  unfold stepsLeft
  split
  all_goals first | omega | (split <;> omega)

/-- A sleep behind a failed `open` is no longer than `REOPEN_DELAY_MS`. -/
theorem sleepMs_bounds (reopenDelayMs remainingMs : Int) :
    0 ≤ sleepMs reopenDelayMs remainingMs ∧
      sleepMs reopenDelayMs remainingMs ≤ max 0 reopenDelayMs := by
  unfold sleepMs
  dsimp only
  split <;> split <;> omega

/-- What a job can still wait is one `poll`, one pause or one sleep. -/
theorem waitsMs_bounds (reopenDelayMs : Int) (j : Job) :
    0 ≤ j.waitsMs reopenDelayMs ∧ j.waitsMs reopenDelayMs ≤ max 50 reopenDelayMs := by
  unfold waitsMs
  split
  · unfold retryMs
    omega
  · rename_i remainingMs here
    have bounds := sleepMs_bounds reopenDelayMs remainingMs
    omega
  · omega
  · split
    · unfold Reader.waitMs Reader.stepMs
      split <;> omega
    · omega
  · omega

/-- A job with so many steps left and no wait ahead. -/
def Leaving (reopenDelayMs : Int) (steps : Nat) (j : Job) : Prop :=
  j.stepsLeft ≤ steps ∧ j.waitsMs reopenDelayMs = 0

/-- A call at its loop condition has no wait ahead. -/
theorem leaving_again (j : Job) (r : Reader) :
    Leaving reopenDelayMs 5 { j with pc := .ofReader r.again } := by
  unfold Reader.again
  split <;> simp [Leaving, stepsLeft, waitsMs, JobPc.ofReader]

/-- A call that returns has none. -/
theorem leaving_ret (j : Job) (r : Reader) (got : Bool) :
    Leaving reopenDelayMs 4 { j with pc := .ofReader (r.ret got) } := by
  simp [Leaving, stepsLeft, waitsMs, JobPc.ofReader, Reader.ret]

/-- A call that has read a chunk has none. -/
theorem leaving_onChunk (j : Job) (r : Reader) (chunk : Chunk) :
    Leaving reopenDelayMs 5 { j with pc := .ofReader (r.onChunk chunk) } := by
  unfold Reader.onChunk
  split
  · exact (leaving_ret j _ _).imp_left fun few => Nat.le_succ_of_le few
  · exact (leaving_ret j _ _).imp_left fun few => Nat.le_succ_of_le few
  · exact leaving_again j _

/-- A step without a wait to a job with none ahead. -/
theorem Leaving.after {steps : Nat} (leaving : Leaving reopenDelayMs steps k)
    (fewer : steps < j.stepsLeft) (quick : j.pauseMs reopenDelayMs obs = 0) :
    k.stepsLeft < j.stepsLeft ∧
      k.waitsMs reopenDelayMs + j.pauseMs reopenDelayMs obs ≤ j.waitsMs reopenDelayMs := by
  obtain ⟨few, unhurried⟩ := leaving
  have bounds := waitsMs_bounds reopenDelayMs j
  omega

/-- A step with an effect loads no flag. -/
theorem agrees_of_effect {flag : Bool} (moved : j.step obs = some (k, effect))
    (loud : effect ≠ .silent) : obs.agrees flag = true := by
  cases step_move moved <;> first | rfl | exact absurd rfl loud

/-- While the flag is cleared every step is one less to make, and takes its wait from what may
still be waited. -/
theorem leaves_step (reopenDelayMs : Int) (agrees : obs.agrees false = true)
    (moved : j.step obs = some (k, effect)) :
    k.stepsLeft < j.stepsLeft ∧
      k.waitsMs reopenDelayMs + j.pauseMs reopenDelayMs obs ≤ j.waitsMs reopenDelayMs := by
  cases step_move moved with
  | proceed here | close here => contradiction
  | date now here | leave here | abandon here | store here | clear here | finish here =>
    simp [stepsLeft, waitsMs, pauseMs, here]
  | expire now here late =>
    simp [stepsLeft, waitsMs, pauseMs, here]
  | budget now here early =>
    have bounds := sleepMs_bounds reopenDelayMs ((j.deadline - now) / nsPerMs)
    simp [stepsLeft, waitsMs, pauseMs, here]
    omega
  | @enter remainingMs here =>
    have leaving : Leaving reopenDelayMs 5 { j with pc := .ofReader (.enter remainingMs) } :=
      leaving_again j _
    exact leaving.after (by simp [stepsLeft, here]) (by simp [pauseMs, here])
  | retry here => simp [stepsLeft, waitsMs, pauseMs, here]
  | @test got enc here =>
    obtain same | ⟨payload, -, same⟩ := judge_cases got enc
    all_goals simp [stepsLeft, waitsMs, pauseMs, here, same, retryMs]
  | @read obs reader next here stepped =>
    have quick (other : ∀ result, obs ≠ .poll result) : j.pauseMs reopenDelayMs obs = 0 := by
      cases obs <;> simp_all [pauseMs, Reader.pauseMs]
    cases Reader.step_move stepped with
    | proceed at_ | pollAgain at_ | pollIdle at_ | pollFail at_ | ready at_ => contradiction
    | poll result at_ =>
      simp [stepsLeft, waitsMs, pauseMs, here, at_, JobPc.ofReader, Reader.pauseMs]
    | quit at_ =>
      refine (leaving_ret j reader false).after ?_ (quick (by simp))
      obtain at_ | ⟨result, at_⟩ := at_ <;> simp [stepsLeft, here, at_]
    | readAgain at_ =>
      exact (leaving_again j reader).after (by simp [stepsLeft, here, at_]) (quick (by simp))
    | readIdle at_ =>
      exact (leaving_again j _).after (by simp [stepsLeft, here, at_]) (quick (by simp))
    | readFail at_ | readEnd at_ =>
      exact (leaving_ret j reader false).after (by simp [stepsLeft, here, at_]) (quick (by simp))
    | data chunk at_ =>
      exact (leaving_onChunk j reader chunk).after (by simp [stepsLeft, here, at_])
        (quick (by simp))

end Job

/-! ## One worker and the time -/

namespace Timed

variable {t next final : Timed} {event : Obs × Nat} {reopenDelayMs start : Int}

/-- While the flag is cleared, the time and what may still be waited grow only by time lost. -/
theorem leaves_step (keeps : Keeps start t) (agrees : event.1.agrees false = true)
    (taken : t.step reopenDelayMs event = some next) :
    next.job.stepsLeft < t.job.stepsLeft ∧
      next.now + next.job.waitsMs reopenDelayMs * nsPerMs - next.lost ≤
        t.now + t.job.waitsMs reopenDelayMs * nsPerMs - t.lost := by
  obtain ⟨-, moved, now, lost⟩ := step_iff.mp taken
  obtain ⟨⟨job, effect⟩, stepped, same⟩ := Option.map_eq_some_iff.mp moved
  have uncharged := keeps.unchargedMs_nonneg event.1
  obtain ⟨fewer, waits⟩ := Job.leaves_step reopenDelayMs agrees stepped
  rw [show job = next.job from same] at fewer waits
  refine ⟨fewer, ?_⟩
  unfold nsPerMs at lost ⊢
  omega

/-- So it is along a run. -/
theorem leaves_run {events : List (Obs × Nat)} (keeps : Keeps start t)
    (reached : Transition.run (Timed.step reopenDelayMs) t events = some final)
    (cleared : ∀ event ∈ events, event.1.agrees false = true) :
    events.length + final.job.stepsLeft ≤ t.job.stepsLeft ∧
      final.now + final.job.waitsMs reopenDelayMs * nsPerMs - final.lost ≤
        t.now + t.job.waitsMs reopenDelayMs * nsPerMs - t.lost := by
  induction events generalizing t with
  | nil =>
    obtain rfl := Option.some.inj reached
    simp
  | cons event rest ih =>
    obtain ⟨next, taken, onward⟩ := Transition.run_cons.mp reached
    have first := leaves_step keeps (cleared event (by simp)) taken
    have later := ih (keeps.step taken) onward fun other member =>
      cleared other (List.mem_cons_of_mem _ member)
    rw [List.length_cons]
    omega

/-- A cancelled job ends soon. From any point of any run on, while the loads of the flag find it
cleared, the job makes at most seven more steps, and they take no longer than one `poll` of 50 ms
or one sleep of `REOPEN_DELAY_MS`, up to the time lost. -/
theorem cancelled_job_ends_soon (reopenDelayMs : Int) (id : String) (timeoutMs start : Int)
    (before after : List (Obs × Nat)) (t final : Timed)
    (reached : Transition.run (Timed.step reopenDelayMs) ⟨{ id, timeoutMs }, start, 0⟩ before =
      some t)
    (onward : Transition.run (Timed.step reopenDelayMs) t after = some final)
    (cleared : ∀ event ∈ after, event.1.agrees false = true) :
    after.length ≤ 7 ∧
      final.now ≤ t.now + max 50 reopenDelayMs * nsPerMs + (final.lost - t.lost) := by
  obtain ⟨keeps, -⟩ := keeps reached
  obtain ⟨steps, time⟩ := leaves_run keeps onward cleared
  have few := t.job.stepsLeft_le
  have most := (t.job.waitsMs_bounds reopenDelayMs).2
  have least := (final.job.waitsMs_bounds reopenDelayMs).1
  refine ⟨by omega, ?_⟩
  unfold nsPerMs at time ⊢
  omega

/-- A job whose device cannot be opened has computed the budget of a round. -/
def beforeOpen : List (Obs × Nat) := [(.clock 0, 0), (.running true, 0), (.clock 0, 0)]

/-- `open` fails, the job sleeps for a second, finds the flag cleared and ends. -/
def sleepsOn : List (Obs × Nat) :=
  [(.opened false, 1000000000), (.running false, 0), (.tau, 0), (.tau, 0), (.tau, 0)]

/-- The stop waits for the whole sleep. -/
theorem sleepsOn_ends : ∃ t final,
    Transition.run (Timed.step 1000) ⟨{ id := "", timeoutMs := 5000 }, 0, 0⟩ beforeOpen = some t ∧
    Transition.run (Timed.step 1000) t sleepsOn = some final ∧ final.job.pc = .exited ∧
    final.now = t.now + max 50 1000 * nsPerMs + (final.lost - t.lost) ∧ sleepsOn.length ≤ 7 ∧
    final.now ≤ t.now + max 50 1000 * nsPerMs + (final.lost - t.lost) := by
  obtain ⟨t, reached⟩ : ∃ t, Transition.run (Timed.step 1000)
      ⟨{ id := "", timeoutMs := 5000 }, 0, 0⟩ beforeOpen = some t := ⟨_, rfl⟩
  have whole : (Transition.run (Timed.step 1000) ⟨{ id := "", timeoutMs := 5000 }, 0, 0⟩
      beforeOpen).bind (fun t => (Transition.run (Timed.step 1000) t sleepsOn).map fun final =>
        (final.job.pc, final.now - t.now, final.lost - t.lost)) =
      some (.exited, 1000000000, 0) := by decide +kernel
  rw [reached, Option.bind_some] at whole
  obtain ⟨final, onward, same⟩ := Option.map_eq_some_iff.mp whole
  simp only [Prod.mk.injEq] at same
  obtain ⟨exited, now, lost⟩ := same
  have soon := cancelled_job_ends_soon 1000 "" 5000 0 beforeOpen sleepsOn t final
    reached onward (by decide)
  refine ⟨t, final, reached, onward, exited, ?_, soon⟩
  unfold nsPerMs
  omega

end Timed

/-! ## The worker in the service -/

namespace World

variable {w next : World} {event : Event}

/-- The event sets `running_`. -/
def arms (w : World) : Event → Bool
  | .handler h =>
    match w.handlers[h]? with
    | some ⟨_, .arming _⟩ => true
    | _ => false
  | _ => false

/-- The event is a step of the worker number `k`. -/
def worksOn (k : Nat) (_ : World) : Event → Bool
  | .job i _ => i = k
  | _ => false

/-- The most steps the worker number `k` can still make while the flag is cleared; one that is
not there yet is allowed the most that any job has. -/
def stepsLeft (k : Nat) (threads : List Thread) : Nat :=
  match threads[k]? with
  | some thread => thread.job.stepsLeft
  | none => 7

/-- There are never more than seven. -/
theorem stepsLeft_le (k : Nat) (threads : List Thread) : stepsLeft k threads ≤ 7 := by
  unfold stepsLeft
  split
  · exact Job.stepsLeft_le _
  · exact Nat.le_refl _

/-- A worker's step is one less to make, for this worker only. -/
theorem stepsLeft_set {k i : Nat} {threads : List Thread} {thread : Thread} {job : Job} {obs : Obs}
    {effect : Effect} (found : threads[i]? = some thread) (agrees : obs.agrees false = true)
    (moved : thread.job.step obs = some (job, effect)) :
    stepsLeft k (threads.set i { thread with job }) + (worksOn k w (.job i obs)).toNat ≤
      stepsLeft k threads := by
  by_cases own : i = k
  · subst own
    have fewer := (Job.leaves_step 0 agrees moved).1
    simp only [stepsLeft, Table.get_set_self found, found, worksOn, decide_true, Bool.toNat_true]
    omega
  · have other : (threads.set i { thread with job })[k]? = threads[k]? :=
      Table.get_set_other (Ne.symm own)
    simp [stepsLeft, other, worksOn, own]

/-- A new worker does not have more steps than it was allowed. -/
theorem stepsLeft_spawn (k : Nat) (threads : List Thread) (h : Nat) (id : String)
    (timeoutMs : Int) :
    stepsLeft k (threads ++ [Thread.mk h { id, timeoutMs }]) ≤ stepsLeft k threads := by
  cases here : threads[k]? with
  | some thread =>
    have old : (threads ++ [Thread.mk h { id, timeoutMs }])[k]? = some thread :=
      Table.get_spawn_old here
    simp only [stepsLeft, old, here]
    exact Nat.le_refl _
  | none =>
    simp only [stepsLeft, here]
    exact stepsLeft_le k _

/-- While no start sets the flag it stays cleared, and every step of a worker is one less to
make. -/
theorem stepsLeft_step (k : Nat) (cleared : w.running = false) (apart : w.arms event = false)
    (taken : w.step event = some next) : next.running = false ∧
      stepsLeft k next.threads + (worksOn k w event).toNat ≤ stepsLeft k w.threads := by
  cases (step_move taken).2 with
  | cancel here => exact ⟨rfl, Nat.le_refl _⟩
  | arm here => simp [arms, here] at apart
  | @launch h request id here free =>
    exact ⟨cleared, stepsLeft_spawn k w.threads h id request.timeout⟩
  | work found agrees moved =>
    rw [cleared] at agrees
    exact ⟨cleared, stepsLeft_set found agrees moved⟩
  | write found moved written | writeFail found moved unwritten =>
    exact ⟨cleared, stepsLeft_set found (Job.agrees_of_effect moved (by simp)) moved⟩
  | clear found moved | finish found moved =>
    exact ⟨by first | rfl | exact cleared,
      stepsLeft_set found (Job.agrees_of_effect moved (by simp)) moved⟩
  | _ => exact ⟨cleared, Nat.le_refl _⟩

/-- A stop waits for few steps. From any state with the flag cleared on, as long as no start sets
it again, every job worker makes at most seven steps, whatever the handlers, the dispatcher and
the other workers do, and the flag stays cleared. -/
theorem stop_bounds_worker (k : Nat) (w final : World) (events : List Event)
    (cleared : w.running = false) (onward : Transition.run World.step w events = some final)
    (apart : Transition.Along World.step (fun w event => w.arms event = false) w events) :
    Transition.tally World.step (worksOn k) w events ≤ 7 ∧ final.running = false := by
  have counted : final.running = false ∧
      Transition.tally World.step (worksOn k) w events + stepsLeft k final.threads ≤ 7 := by
    refine Transition.run_tally
      (fun (w : World) count => w.running = false ∧ count + stepsLeft k w.threads ≤ 7)
      ?_ ⟨cleared, by simpa using stepsLeft_le k w.threads⟩ onward apart
    intro state event next count held apart taken
    obtain ⟨still, fewer⟩ := stepsLeft_step k held.1 apart taken
    have bound := held.2
    exact ⟨still, by omega⟩
  exact ⟨by omega, counted.1⟩

/-- A job is about to look at the clock when a stop clears the flag. -/
def aboutToRead : List Event :=
  initCall 0 ++ (startCall 1 5000 fun _ => 0) ++
    [.job 0 (.clock 0), .job 0 (.running true), .request .stop, .handler 2]

/-- The job opens its device once more before it finds the flag cleared. -/
def lastRound : List Event :=
  [.job 0 (.clock 0), .handler 2, .job 0 (.opened true), .job 0 (.running false),
    .job 0 (.running false), .job 0 .tau, .job 0 .tau, .job 0 .tau, .handler 2]

/-- It makes all of the seven steps. -/
theorem lastRound_bounded : ∃ w final, Transition.run World.step {} aboutToRead = some w ∧
    Transition.run World.step w lastRound = some final ∧
    Transition.tally World.step (worksOn 0) w lastRound = 7 ∧
    Transition.tally World.step (worksOn 0) w lastRound ≤ 7 ∧ final.running = false := by
  obtain ⟨w, reached, final, onward, cleared, seven, apart⟩ : ∃ w,
      Transition.run World.step {} aboutToRead = some w ∧ ∃ final,
      Transition.run World.step w lastRound = some final ∧ w.running = false ∧
      Transition.tally World.step (worksOn 0) w lastRound = 7 ∧
      Transition.Along World.step (fun w event => w.arms event = false) w lastRound :=
    ⟨_, rfl, _, rfl, rfl, by decide, by decide⟩
  exact ⟨w, final, reached, onward, seven,
    stop_bounds_worker 0 w final lastRound cleared onward apart⟩

end World

end QrEdgeGateway
