import QrEdgeGateway.Service

/-!
# A stop against a waiting job

One call of `JobRunner::stop` is interleaved with the steps of one `run_job`. The call clears
`running_` once; from then on the worker can only leave its loop, except that after its last load
of the flag it tests the frame it holds and stores what it found. Whether a stop cancels the wait
is therefore decided by where the worker stands when the flag is cleared.
-/

namespace QrEdgeGateway

/-- The worker has made its last load of `running_` and holds a frame it will store as done. -/
def Job.committed (j : Job) : Bool :=
  match j.pc with
  | .decoding got enc => got && (acceptFrame enc).isSome
  | .storing (.done _) => true
  | _ => false

namespace Job

variable {j k : Job} {obs : Obs}

/-- The reader commits to nothing. -/
theorem committed_ofReader (reader : Reader) :
    ({ j with pc := .ofReader reader } : Job).committed = false := by
  unfold JobPc.ofReader
  split <;> rfl

/-- The tests of a frame keep the commitment. -/
theorem committed_judge (got : Bool) (enc : Bytes) :
    ({ j with pc := judge got enc } : Job).committed = (got && (acceptFrame enc).isSome) := by
  unfold judge
  cases got with
  | false => rfl
  | true => cases acceptFrame enc <;> rfl

/-- While the flag is cleared a worker commits to nothing new and gives up no commitment. -/
theorem committed_of_step (agrees : obs.agrees false = true)
    (moved : j.step obs = some (k, .silent)) : k.committed = j.committed := by
  cases step_move moved with
  | proceed here | close here => contradiction
  | enter here | read here stepped =>
    rw [committed_ofReader]
    simp [committed, here]
  | test here =>
    rw [committed_judge]
    simp [committed, here]
  | date now here | expire now here late | budget now here early => simp [committed, here]
  | _ here => simp [committed, here]

/-- A worker at its write cancels or times out exactly if it is not committed. -/
theorem record_of_committed {outcome : Outcome} (here : j.pc = .storing outcome) :
    (outcome.record.status = .cancelled ∨ outcome.record.status = .timeout) ↔
      j.committed = false := by
  cases outcome <;> simp [committed, here, Outcome.record]

end Job

/-- The handler is past the clearing of `running_` and will not set it. -/
def Handler.cleared (hd : Handler) : Bool :=
  match hd.pc with
  | .checking => true
  | .joining => true
  | .creating => true
  | .submitting => !hd.request.starts
  | .awaiting => !hd.request.starts
  | .answered _ => true
  | _ => false

namespace Request

/-- `JobRunner::stop` returns past the clearing. -/
theorem cleared_afterStop (request : Request) :
    (⟨request, request.afterStop⟩ : Handler).cleared = true := by
  cases request <;> rfl

/-- So does a response to any request but a start. -/
theorem cleared_onResponse {request : Request} (other : request.starts = false) (r : Response) :
    (⟨request, request.onResponse r⟩ : Handler).cleared = true := by
  cases request with
  | start timeoutMs => contradiction
  | _ => rfl

end Request

namespace World

variable {w next : World} {h k : Nat} {id : String} {obs : Obs}

/-- A handler past the clearing touches neither workers, records nor flag. -/
theorem cleared_step {hd : Handler} (here : w.handlers[h]? = some hd) (past : hd.cleared = true)
    (taken : w.step (.handler h) = some next) :
    next.threads = w.threads ∧ next.store = w.store ∧ next.running = w.running ∧
      ∃ hd' : Handler, next.handlers[h]? = some hd' ∧ hd'.cleared = true := by
  cases (step_move taken).2 with
  | submit there asked =>
    obtain rfl := Option.some.inj (here.symm.trans there)
    exact ⟨rfl, rfl, rfl, _, Table.get_set_self here, past⟩
  | receive there ready =>
    obtain rfl := Option.some.inj (here.symm.trans there)
    refine ⟨rfl, rfl, rfl, _, Table.get_set_self here, ?_⟩
    exact Request.cleared_onResponse (by simpa [Handler.cleared] using past) _
  | idle there free | join there same found exited =>
    exact ⟨rfl, rfl, rfl, _, Table.get_set_self here, Request.cleared_afterStop _⟩
  | wait there same | joinFail there free =>
    exact ⟨rfl, rfl, rfl, _, Table.get_set_self here, rfl⟩
  | _ there =>
    obtain rfl := Option.some.inj (here.symm.trans there)
    contradiction

/-- The worker `k` runs the job `id`: its record is there, with one property before the write and
another after it. -/
def Watched (k : Nat) (id : String) (before : Job → Prop) (after : JobResult → Prop)
    (w : World) : Prop :=
  ∃ (thread : Thread) (res : JobResult), w.threads[k]? = some thread ∧ thread.job.id = id ∧
    w.store.get id = some res ∧
    if thread.job.pc.written then after res else before thread.job

/-- A step of the worker: what it does without effect keeps the first property, and its write
brings the second. -/
theorem Watched.work {before : Job → Prop} {after : JobResult → Prop}
    (watched : w.Watched k id before after)
    (keeps : ∀ {j job : Job}, obs.agrees w.running = true → j.step obs = some (job, .silent) →
      before j → before job)
    (writes : ∀ {j : Job} {outcome : Outcome}, j.pc = .storing outcome → before j →
      after outcome.record)
    (taken : w.step (.job k obs) = some next) : next.Watched k id before after := by
  obtain ⟨thread, res, here, rfl, present, holds⟩ := watched
  cases (step_move taken).2 with
  | work found agrees moved =>
    obtain rfl := Option.some.inj (found.symm.trans here)
    obtain ⟨same, live, onward, -⟩ := Job.of_silent moved
    rw [live] at holds
    refine ⟨_, res, Table.get_set_self here, same, present, ?_⟩
    simp only [show _ = false from onward]
    exact keeps agrees moved holds
  | @write _ _ _ _ outcome _ found moved written =>
    obtain rfl := Option.some.inj (found.symm.trans here)
    obtain ⟨same, storing, onward⟩ := Job.of_write moved
    rw [storing] at holds
    refine ⟨_, outcome.record, Table.get_set_self here, same, ?_, ?_⟩
    · rw [JobStore.get_write written, if_pos same.symm]
    · simp only [onward]
      exact writes storing holds
  | @writeFail _ _ job _ outcome found moved unwritten =>
    obtain rfl := Option.some.inj (found.symm.trans here)
    have missing := JobStore.write_isSome w.store job.id outcome
    rw [unwritten, (Job.of_write moved).1, present] at missing
    contradiction
  | clear found moved =>
    obtain rfl := Option.some.inj (found.symm.trans here)
    obtain ⟨same, clearing, onward⟩ := Job.of_clear moved
    refine ⟨_, res, Table.get_set_self here, same, present, ?_⟩
    simpa [clearing, onward, JobPc.written] using holds
  | finish found moved =>
    obtain rfl := Option.some.inj (found.symm.trans here)
    obtain ⟨same, finishing, onward⟩ := Job.of_finish moved
    refine ⟨_, res, Table.get_set_self here, same, present, ?_⟩
    simpa [finishing, onward, JobPc.written] using holds

/-- Before the flag is cleared: the call stands at the clearing, and the record is pending only
until the worker's write. -/
def Waiting (h : Nat) (request : Request) (k : Nat) (id : String) (w : World) : Prop :=
  w.handlers[h]? = some ⟨request, .cancelling⟩ ∧
    w.Watched k id (fun _ => True) fun res => res.status.Terminal

/-- After it: the flag stays cleared, and the worker ends as it was bound to. -/
def Cancelled (h k : Nat) (id : String) (committed : Bool) (w : World) : Prop :=
  w.running = false ∧ (∃ hd : Handler, w.handlers[h]? = some hd ∧ hd.cleared = true) ∧
    w.Watched k id (fun j => j.committed = committed) fun res =>
      (res.status = .cancelled ∨ res.status = .timeout) ↔ committed = false

/-- A worker's step touches no handler. -/
theorem handlers_of_job (taken : w.step (.job k obs) = some next) :
    next.handlers = w.handlers := by
  cases (step_move taken).2 <;> rfl

/-- A worker's step leaves a cleared flag. -/
theorem running_of_job (cleared : w.running = false) (taken : w.step (.job k obs) = some next) :
    next.running = false := by
  cases (step_move taken).2 with
  | clear found moved => rfl
  | _ => exact cleared

/-- The worker moves before the flag is cleared. -/
theorem Waiting.step {request : Request} (waiting : w.Waiting h request k id)
    (taken : w.step (.job k obs) = some next) : next.Waiting h request k id := by
  obtain ⟨here, watched⟩ := waiting
  refine ⟨(handlers_of_job taken).symm ▸ here, ?_⟩
  exact watched.work (fun _ _ _ => trivial) (fun _ _ => Outcome.record_terminal _) taken

/-- The flag is cleared while the record is pending. -/
theorem Waiting.clear {request : Request} {thread : Thread} {res : JobResult}
    (waiting : w.Waiting h request k id) (there : w.threads[k]? = some thread)
    (recorded : w.store.get id = some res) (pending : res.status = .pending)
    (taken : w.step (.handler h) = some next) :
    next.Cancelled h k id thread.job.committed := by
  obtain ⟨here, found, record, same, own, present, holds⟩ := waiting
  obtain rfl := Option.some.inj (same.symm.trans there)
  obtain rfl := Option.some.inj (present.symm.trans recorded)
  -- a stored status is terminal, so the worker has not made its write
  have live : found.job.pc.written = false := by
    cases written : found.job.pc.written with
    | false => rfl
    | true =>
      rw [written] at holds
      exact absurd pending holds
  cases (step_move taken).2 with
  | cancel held =>
    refine ⟨rfl, ⟨_, Table.get_set_self here, rfl⟩, found, record, there, own, recorded, ?_⟩
    rw [live]
    rfl
  | _ held =>
    rw [here] at held
    cases held

/-- The worker or the call moves after it. -/
theorem Cancelled.step {committed : Bool} {event : Event}
    (cancelled : w.Cancelled h k id committed)
    (one : event = .handler h ∨ ∃ obs, event = .job k obs) (taken : w.step event = some next) :
    next.Cancelled h k id committed := by
  obtain ⟨running, ⟨hd, here, past⟩, watched⟩ := cancelled
  obtain rfl | ⟨obs, rfl⟩ := one
  · obtain ⟨threads, store, flag, after⟩ := cleared_step here past taken
    refine ⟨flag.trans running, after, ?_⟩
    unfold Watched
    rwa [threads, store]
  · refine ⟨running_of_job running taken, ⟨hd, (handlers_of_job taken).symm ▸ here, past⟩, ?_⟩
    refine watched.work ?_ ?_ taken
    · intro j job agrees moved held
      rw [running] at agrees
      exact (Job.committed_of_step agrees moved).trans held
    · intro j outcome storing held
      rw [Job.record_of_committed storing, held]

/-- One call of `JobRunner::stop` clears the flag while the record of a job is pending. The job
then stores `CANCELLED` or `TIMEOUT` exactly if it had not made its last load of the flag with a
QR frame in hand. -/
theorem stop_cancels_iff {w v final : World} {h k owner : Nat} {request : Request} {id : String}
    {timeoutMs : Int} {before after : List Event} {waiting ended : Thread} {res : JobResult}
    (called : w.handlers[h]? = some ⟨request, .cancelling⟩)
    (launched : w.threads[k]? = some ⟨owner, { id, timeoutMs }⟩)
    (created : w.store.get id = some {})
    (worked : ∀ event ∈ before, ∃ obs, event = .job k obs)
    (came : Transition.run World.step w before = some v)
    (there : v.threads[k]? = some waiting)
    (recorded : v.store.get id = some res) (pending : res.status = .pending)
    (interleaved : ∀ event ∈ after, event = .handler h ∨ ∃ obs, event = .job k obs)
    (went : Transition.run World.step v (.handler h :: after) = some final)
    (found : final.threads[k]? = some ended) (stored : ended.job.pc.written = true) :
    ∃ last, final.store.get id = some last ∧
      ((last.status = .cancelled ∨ last.status = .timeout) ↔ waiting.job.committed = false) := by
  have begun : w.Waiting h request k id := ⟨called, _, _, launched, rfl, created, trivial⟩
  have waits : v.Waiting h request k id := by
    refine Transition.run_among (Waiting h request k id) ?_ begun came worked
    rintro _ _ _ held ⟨obs, rfl⟩ taken
    exact held.step taken
  obtain ⟨cleared, taken, onward⟩ := Transition.run_cons.mp went
  have start := waits.clear there recorded pending taken
  have cancelled : final.Cancelled h k id waiting.job.committed :=
    Transition.run_among (Cancelled h k id waiting.job.committed)
      (fun held one moved => held.step one moved) start onward interleaved
  obtain ⟨-, -, thread, last, same, -, get, holds⟩ := cancelled
  obtain rfl := Option.some.inj (same.symm.trans found)
  rw [stored] at holds
  exact ⟨last, get, holds⟩

/-- A job is started and a stop arrives. -/
def stopArrives : List Event :=
  initCall 0 ++ (startCall 1 5000 fun _ => 0) ++ [.request .stop]

/-- A worker that has not read a frame is cancelled. -/
theorem stopArrives_cancelled : ∃ w v final,
    Transition.run World.step {} stopArrives = some w ∧
    Transition.run World.step w [.job 0 (.clock 0)] = some v ∧
    Transition.run World.step v
      (.handler 2 :: [.job 0 (.running false), .handler 2, .job 0 .tau]) = some final ∧
    ∃ last, final.store.get "00000000" = some last ∧
      (last.status = .cancelled ∨ last.status = .timeout) := by
  obtain ⟨w, reached, called, launched, created, v, came, waiting, there, free, res, recorded,
      pending, final, went, ended, found, stored⟩ : ∃ w,
      Transition.run World.step {} stopArrives = some w ∧
      w.handlers[2]? = some ⟨.stop, .cancelling⟩ ∧
      w.threads[0]? = some ⟨1, { id := "00000000", timeoutMs := 5000 }⟩ ∧
      w.store.get "00000000" = some {} ∧ ∃ v,
      Transition.run World.step w [.job 0 (.clock 0)] = some v ∧
      ∃ waiting : Thread, v.threads[0]? = some waiting ∧ waiting.job.committed = false ∧
      ∃ res, v.store.get "00000000" = some res ∧ res.status = .pending ∧ ∃ final,
      Transition.run World.step v
        (.handler 2 :: [.job 0 (.running false), .handler 2, .job 0 .tau]) = some final ∧
      ∃ ended : Thread, final.threads[0]? = some ended ∧ ended.job.pc.written = true :=
    ⟨_, rfl, rfl, by decide, by decide, _, rfl, _, rfl, rfl, _, rfl, rfl, _, rfl, _, rfl, rfl⟩
  obtain ⟨last, get, status⟩ := stop_cancels_iff called launched created (by simp) came there
    recorded pending (by simp) went found stored
  exact ⟨w, v, final, reached, came, went, last, get, status.mpr free⟩

/-- The worker reads a frame holding `QR:` and loads the flag once more. -/
def frameInHand : List Event :=
  [.job 0 (.clock 0), .job 0 (.running true), .job 0 (.clock 0), .job 0 (.opened true),
    .job 0 (.running true), .job 0 (.poll .readable), .job 0 (.running true),
    .job 0 (.read (.data qrChunk)), .job 0 (.running true)]

/-- The stop clears the flag while the record is pending, and the job stores `DONE`. -/
theorem frameInHand_done : ∃ w v final,
    Transition.run World.step {} stopArrives = some w ∧
    Transition.run World.step w frameInHand = some v ∧
    v.store.get "00000000" = some {} ∧
    Transition.run World.step v
      (.handler 2 :: [.handler 2, .job 0 .tau, .job 0 .tau]) = some final ∧
    final.store.get "00000000" = some ⟨.done, "OK", some qrPrefix⟩ :=
  ⟨_, _, _, rfl, rfl, by decide, rfl, by decide⟩

end World

end QrEdgeGateway
