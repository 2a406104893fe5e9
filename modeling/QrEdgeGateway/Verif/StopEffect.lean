import QrEdgeGateway.Verif.Acceptance

/-!
# The effect of STOP

A stop request cancels and joins the worker first and stops the core second; a start request
has the core accept first and launches the worker second. Between the two steps of a start
nothing ties the acceptance to the worker, so a stop that falls there finds nothing to join and
the worker starts after the stop was answered. When no stop and no acceptance fall into each
other's gap, the service is calm from the join of a stop until the next acceptance: every
thread has exited and no accepted start is still to launch one.
-/

namespace QrEdgeGateway

/-- The handler has left the `jobs_.stop()` of a stop request and is not answered. -/
def Handler.halting (hd : Handler) : Bool :=
  hd.request.stops && (hd.pc = .submitting || hd.pc = .awaiting)

namespace World

variable {w next : World} {event : Event} {events : List Event}

/-- This step puts a start and a stop into each other's gap: a start is accepted while a stop
request is between its join and its answer, or a stop request leaves `jobs_.stop()` while an
accepted start has not launched its worker. -/
def overlaps (w : World) (event : Event) : Bool :=
  match event with
  | .dispatch .execute => w.accepts event ∧ Table.Any w.handlers fun _ hd => hd.halting = true
  | .handler h =>
    match w.handlers[h]? with
    | some hd =>
      hd.request.stops ∧
        (hd.pc = .checking ∧ w.handle = none ∨ hd.pc = .joining ∧ w.handle ≠ none) ∧
        Carried w.disp w.handlers
    | none => false
  | _ => false

/-- Every thread has exited and no accepted start is still to launch one. -/
structure Calm (w : World) : Prop where
  /-- No thread runs. -/
  exited : Table.All w.threads fun _ thread => thread.job.pc = .exited
  /-- No thread is about to be started. -/
  free : ¬ Carried w.disp w.handlers

/-- Without a carried acceptance no handler is about to launch a thread. -/
theorem not_launching (typed : Table.All w.handlers fun _ hd => hd.Typed)
    (free : ¬ Carried w.disp w.handlers) {h : Nat} {request : Request} {id : String} :
    w.handlers[h]? ≠ some ⟨request, .launching id⟩ := by
  intro here
  exact free ⟨h, _, here, typed h _ here, .inl rfl⟩

/-- An exited thread takes no step. -/
theorem Calm.no_work (calm : w.Calm) {k : Nat} {thread : Thread} {job : Job} {obs : Obs}
    {effect : Effect} (found : w.threads[k]? = some thread) :
    thread.job.step obs ≠ some (job, effect) := fun moved =>
  Job.unfinished_of_step moved (calm.exited k thread found)

/-- The service stays calm until a start is accepted. -/
theorem Calm.step (calm : w.Calm) (ticketed : Ticketed w.disp w.threads w.handlers)
    (typed : Table.All w.handlers fun _ hd => hd.Typed) (refused : w.accepts event = false)
    (taken : w.step event = some next) : next.Calm := by
  have free : ¬ Carried next.disp next.handlers := by
    intro carried
    obtain before | accepting := carried_of_step ticketed taken carried
    · exact calm.free before
    · rw [refused] at accepting
      contradiction
  refine ⟨?_, free⟩
  cases (step_move taken).2 with
  | launch here free => exact absurd here (not_launching typed calm.free)
  | work found agrees moved => exact absurd moved (calm.no_work found)
  | write found moved written => exact absurd moved (calm.no_work found)
  | writeFail found moved unwritten => exact absurd moved (calm.no_work found)
  | clear found moved => exact absurd moved (calm.no_work found)
  | finish found moved => exact absurd moved (calm.no_work found)
  | _ => exact calm.exited

/-- A stop request is past its join only while the service is calm. -/
def Halted (w : World) : Prop := Table.Any w.handlers (fun _ hd => hd.halting = true) → w.Calm

/-- A stop request that leaves `jobs_.stop()` outside the gap of a start leaves the service
calm. -/
theorem calm_of_leaving {h : Nat} {request : Request} {pc : RestPc} (sorted : w.Sorted)
    (here : w.handlers[h]? = some ⟨request, pc⟩) (stops : request.stops = true)
    (leaving : pc = .checking ∧ w.handle = none ∨ pc = .joining ∧ w.handle ≠ none)
    (apart : w.overlaps (.handler h) = false)
    (exited : Table.All w.threads fun _ thread => thread.job.pc = .exited)
    (taken : w.step (.handler h) = some next) (threads : next.threads = w.threads) :
    next.Calm := by
  have free : ¬ Carried w.disp w.handlers := by
    intro carried
    have overlapping : w.overlaps (.handler h) = true := by
      simp only [overlaps, here]
      exact decide_eq_true ⟨stops, leaving, carried⟩
    rw [apart] at overlapping
    contradiction
  refine ⟨threads ▸ exited, fun carried => ?_⟩
  obtain before | accepting := carried_of_step sorted.ticketed taken carried
  · exact free before
  · simp [accepts] at accepting

/-- A stop request that answers or awaits its answer was already past its join. -/
theorem halting_entry (request : Request) :
    (⟨request, request.entry⟩ : Handler).halting = false := by
  by_cases stops : request.stops = true
  · simp [Handler.halting, Request.entry_of_stops stops]
  · simp [Handler.halting, stops]

/-- A response ends the halt of a stop request. -/
theorem halting_onResponse (request : Request) (r : Response) :
    (⟨request, request.onResponse r⟩ : Handler).halting = false := by
  cases request with
  | start timeoutMs => rfl
  | _ => simp [Handler.halting, Request.onResponse]

/-- Steps outside each other's gap keep the service calm around every halting request. -/
theorem Halted.step (held : w.Halted) (sorted : w.Sorted) (apart : w.overlaps event = false)
    (taken : w.step event = some next) : next.Halted := by
  intro halting
  -- a request that was halting before this step: calm continues, since no start is accepted
  have onward : Table.Any w.handlers (fun _ hd => hd.halting = true) → next.Calm := by
    intro before
    have refused : w.accepts event = false := by
      by_contra accepting
      have accepting : w.accepts event = true := by simpa using accepting
      obtain ⟨rfl, -⟩ := accepts_iff.mp accepting
      have overlapping : w.overlaps (.dispatch .execute) = true :=
        decide_eq_true ⟨accepting, before⟩
      rw [apart] at overlapping
      contradiction
    exact (held before).step sorted.ticketed sorted.typed refused taken
  cases (step_move taken).2 with
  | arrive request =>
    obtain old | fresh := Table.Any.of_spawn halting
    · exact onward old
    · rw [halting_entry] at fresh
      contradiction
  | configure here =>
    refine onward (Table.Any.of_set halting here fun now => ?_)
    have typed : Request.stops _ = false := sorted.typed _ _ here
    simp [Handler.halting, typed] at now
  | submit here asked =>
    exact onward (Table.Any.of_set halting here fun now => by
      simpa [Handler.halting] using now)
  | receive here ready =>
    refine onward (Table.Any.of_set halting here fun now => ?_)
    rw [halting_onResponse] at now
    contradiction
  | @idle h request here free =>
    by_cases stops : request.stops = true
    · exact calm_of_leaving sorted here stops (.inl ⟨rfl, free⟩) apart
        (sorted.joinable.exited_of_none free) taken rfl
    · refine onward (Table.Any.of_set halting here fun now => ?_)
      simp [Handler.halting, stops] at now
  | @join h k request thread here same found exited =>
    by_cases stops : request.stops = true
    · exact calm_of_leaving sorted here stops (.inr ⟨rfl, by simp [same]⟩) apart
        (sorted.joinable.exited_of_joined same found exited) taken rfl
    · refine onward (Table.Any.of_set halting here fun now => ?_)
      simp [Handler.halting, stops] at now
  | terminate here same | work found agrees moved | write found moved written
  | writeFail found moved unwritten | clear found moved | finish found moved
  | dispatch moved => exact onward halting
  | create rd here =>
    exact onward (Table.Any.of_set halting here fun now => by simp [Handler.halting] at now)
  | _ here =>
    exact onward (Table.Any.of_set halting here fun now => by simp [Handler.halting] at now)

end World

/-- The handler has launched its thread or never will. -/
def Handler.Spent (hd : Handler) : Prop :=
  hd.request.starts = true →
    match hd.pc with
    | .replying _ => True
    | .answered _ => True
    | _ => False

namespace World

variable {w next : World} {event : Event} {events : List Event}

/-- The start of this handler is over: it launches no more and what it launched has exited. -/
structure Over (h : Nat) (w : World) : Prop where
  /-- The handler launches no more. -/
  spent : ∃ hd, w.handlers[h]? = some hd ∧ hd.Spent
  /-- Its threads have exited. -/
  exited : Table.All w.threads fun _ thread => thread.owner = h → thread.job.pc = .exited

/-- A start that was accepted when the service is calm is over. -/
theorem Calm.ended {h : Nat} (calm : w.Calm) (ticketed : Ticketed w.disp w.threads w.handlers)
    (granted : w.disp.Granted (.handler h)) : Over h w where
  spent := by
    obtain ⟨hd, found, past⟩ := ticketed.handler h granted.mem_tags
    refine ⟨hd, found, fun starts => ?_⟩
    have free : ¬ hd.Carries w.disp h := fun carries => calm.free ⟨h, hd, found, carries⟩
    unfold Handler.Carries at free
    cases pc : hd.pc <;>
      simp [Handler.fresh, pc, starts, RestPc.within, granted] at past free ⊢
  exited := calm.exited.mono fun _ _ _ exited _ => exited

/-- A handler's step keeps every start over that was over. -/
theorem Over.move {h i : Nat} {request : Request} {pc pc' : RestPc}
    (spent : ∃ hd, w.handlers[h]? = some hd ∧ hd.Spent)
    (here : w.handlers[i]? = some ⟨request, pc⟩)
    (keeps : (⟨request, pc⟩ : Handler).Spent → (⟨request, pc'⟩ : Handler).Spent) :
    ∃ hd, (w.handlers.set i ⟨request, pc'⟩)[h]? = some hd ∧ hd.Spent := by
  obtain ⟨hd, found, ended⟩ := spent
  by_cases same : h = i
  · subst same
    obtain rfl := Option.some.inj (found.symm.trans here)
    exact ⟨_, Table.get_set_self here, keeps ended⟩
  · exact ⟨hd, (Table.get_set_other same).trans found, ended⟩

/-- A worker's step keeps every exited thread exited. -/
theorem Over.work {h k : Nat} {thread : Thread} {job : Job} (ended : Over h w)
    (found : w.threads[k]? = some thread) (running : thread.job.Unfinished) :
    Table.All (w.threads.set k { thread with job })
      fun _ thread => thread.owner = h → thread.job.pc = .exited :=
  ended.exited.set fun own => absurd (ended.exited k thread found own) running

/-- A start that is over stays over. -/
theorem Over.step {h : Nat} (ended : Over h w) (sorted : w.Sorted)
    (taken : w.step event = some next) : Over h next := by
  cases (step_move taken).2 with
  | arrive request =>
    obtain ⟨hd, found, spent⟩ := ended.spent
    exact ⟨⟨hd, Table.get_spawn_old found, spent⟩, ended.exited⟩
  | @launch i request id here free =>
    refine ⟨Over.move ended.spent here fun _ _ => trivial, ended.exited.spawn fun own => ?_⟩
    obtain ⟨hd, found, spent⟩ := ended.spent
    obtain rfl : i = h := own
    obtain rfl := Option.some.inj (found.symm.trans here)
    exact False.elim (spent (sorted.typed _ _ here))
  | terminate here same | dispatch moved => exact ⟨ended.spent, ended.exited⟩
  | work found agrees moved => exact ⟨ended.spent, ended.work found (Job.unfinished_of_step moved)⟩
  | write found moved written =>
    exact ⟨ended.spent, ended.work found (Job.unfinished_of_step moved)⟩
  | writeFail found moved unwritten =>
    exact ⟨ended.spent, ended.work found (Job.unfinished_of_step moved)⟩
  | clear found moved => exact ⟨ended.spent, ended.work found (Job.unfinished_of_step moved)⟩
  | finish found moved => exact ⟨ended.spent, ended.work found (Job.unfinished_of_step moved)⟩
  | create rd here => exact ⟨Over.move ended.spent here fun spent => spent, ended.exited⟩
  | reject here | joinFail here free | reply here | miss here absent | fetch here found
  | fetchFail here absent | giveUp here unset =>
    exact ⟨Over.move ended.spent here fun _ _ => trivial, ended.exited⟩
  | _ here =>
    exact ⟨Over.move ended.spent here fun spent starts => False.elim (spent starts), ended.exited⟩

/-- STOP is effective. Take any run in which no stop and no acceptance fall into each other's
gap, up to a stop request that receives its response. From then until the core next accepts a
start, no worker is live; and no worker whose start was accepted by then is live at any later
point, so none of those stores `DONE` any more. -/
theorem stop_is_effective (before after : List Event) (h : Nat) (request : Request)
    (w₀ w₁ w₂ : World) (reached : Transition.run World.step {} before = some w₀)
    (apart : Transition.Along World.step (fun w event => w.overlaps event = false) {} before)
    (stops : request.stops = true) (waits : w₀.handlers[h]? = some ⟨request, .awaiting⟩)
    (answered : w₀.step (.handler h) = some w₁)
    (onward : Transition.run World.step w₁ after = some w₂) :
    (Transition.Along World.step (fun w event => w.accepts event = false) w₁ after →
      ¬ Table.Any w₂.threads fun _ thread => thread.job.Live) ∧
    Table.All w₂.threads fun _ thread =>
      w₁.disp.Granted (.handler thread.owner) → ¬ thread.job.Live := by
  have held : w₀.Sorted ∧ w₀.Halted :=
    Transition.run_invariant (fun w : World => w.Sorted ∧ w.Halted)
      (fun held apart taken => ⟨held.1.step taken, held.2.step held.1 apart taken⟩)
      ⟨sorted Transition.run_nil, fun ⟨_, _, found, _⟩ => by simp at found⟩ reached apart
  obtain ⟨sorted₀, halted⟩ := held
  have calm₀ : w₀.Calm := halted ⟨h, _, waits, by simp [Handler.halting, stops]⟩
  have calm₁ : w₁.Calm := calm₀.step sorted₀.ticketed sorted₀.typed (by simp [accepts]) answered
  have sorted₁ := sorted₀.step answered
  constructor
  · intro refused
    have calm₂ : w₂.Sorted ∧ w₂.Calm :=
      Transition.run_invariant (fun w : World => w.Sorted ∧ w.Calm)
        (fun held refused taken =>
          ⟨held.1.step taken, held.2.step held.1.ticketed held.1.typed refused taken⟩)
        ⟨sorted₁, calm₁⟩ onward refused
    rintro ⟨k, thread, found, live⟩
    exact live.unfinished (calm₂.2.exited k thread found)
  · intro k thread found granted live
    have ended : w₂.Sorted ∧ Over thread.owner w₂ :=
      Transition.run_stable (fun w : World => w.Sorted ∧ Over thread.owner w)
        (fun held taken => ⟨held.1.step taken, held.2.step held.1 taken⟩)
        ⟨sorted₁, calm₁.ended sorted₁.ticketed granted⟩ onward
    exact live.unfinished (ended.2.exited k thread found rfl)

/-- A job is started and stopped while it waits: the worker sees the cleared flag, stores its
status, submits its `FINISH_JOB` and is joined; the dispatcher serves `FINISH_JOB` and `STOP`. -/
def stoppedRun : List Event :=
  initCall 0 ++ (startCall 1 5000 fun _ => 0) ++
    [.request .stop, .handler 2, .handler 2, .job 0 (.clock 0), .job 0 (.running false),
      .job 0 .tau, .job 0 .tau, .job 0 .tau, .handler 2, .handler 2] ++ serve ++ serve

/-- When the stop of a waiting job is answered no worker is live, and none of an earlier start
ever is again. -/
theorem stoppedRun_effective : ∃ w₀ w₁, Transition.run World.step {} stoppedRun = some w₀ ∧
    w₀.step (.handler 2) = some w₁ ∧ w₁.disp.Granted (.handler 1) ∧
    ¬ Table.Any w₁.threads fun _ thread => thread.job.Live :=
  ⟨_, _, rfl, rfl, by decide, (stop_is_effective stoppedRun [] 2 .stop _ _ _ rfl (by decide) rfl
    rfl rfl rfl).1 trivial⟩

/-- A stop is served while an accepted start has not launched its worker. -/
def lateStartRun : List Event :=
  initCall 0 ++ [.request (.start 5000), .handler 1] ++ serve ++
    [.request .stop, .handler 2, .handler 2, .handler 2] ++ serve

/-- The start goes on: it finds no thread to join and launches its worker. -/
def lateLaunch : List Event :=
  [.handler 1, .handler 1, .handler 1, .draw 1 fun _ => 0, .handler 1, .handler 1]

/-- The worker reads one frame holding `QR:` and stores it. -/
def lateResult : List Event :=
  [.job 0 (.clock 0), .job 0 (.running true), .job 0 (.clock 0), .job 0 (.opened true),
    .job 0 (.running true), .job 0 (.poll .readable), .job 0 (.running true),
    .job 0 (.read (.data qrChunk)),
    .job 0 (.running true), .job 0 .tau, .job 0 .tau]

/-- After the stop was answered `STOPPED`, without any further acceptance, the worker of the
start accepted before it is live and stores `DONE`. -/
theorem lateStartRun_done : ∃ w₀ w₁ w₂ w₃,
    Transition.run World.step {} lateStartRun = some w₀ ∧ w₀.step (.handler 2) = some w₁ ∧
    (w₁.handlers[2]?.map Handler.pc) =
      some (.answered { status := 200, ok := true, message := "OK", state := some .stopped }) ∧
    w₁.disp.Granted (.handler 1) ∧
    Transition.run World.step w₁ lateLaunch = some w₂ ∧
    Transition.Along World.step (fun w event => w.accepts event = false) w₁ lateLaunch ∧
    Table.Any w₂.threads (fun _ thread => thread.owner = 1 ∧ thread.job.Live) ∧
    Transition.run World.step w₂ lateResult = some w₃ ∧
    w₃.store.get "00000000" = some ⟨.done, "OK", some qrPrefix⟩ :=
  ⟨_, _, _, _, rfl, rfl, by decide, by decide, rfl, by decide, by decide, rfl, by decide⟩

end World

end QrEdgeGateway
