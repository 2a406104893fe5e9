import QrEdgeGateway.Verif.Acceptance

/-!
# RUNNING without a job

`RUNNING` is set when the core accepts a start and cleared by the `FINISH_JOB` of the job's
worker. In between somebody has to carry the job on: the handler that asked, the worker, or a
`FINISH_JOB` in the queue. A handler that gives up its wait leaves its `START_JOB` in the queue
and nobody to start the job once it is accepted; so does a start call whose `join` throws.
Without these steps `RUNNING` is always backed, and at rest by a worker.
-/

namespace QrEdgeGateway

namespace World

variable {w next : World} {event : Event} {events : List Event}

/-- This step leaves an accepted start to nobody: a task is accepted whose handler no longer
waits, a handler gives up although its task has succeeded, or the `join` of a start call finds
the thread already joined. -/
def abandons (w : World) (event : Event) : Bool :=
  match event with
  | .dispatch .execute =>
    w.accepts event &&
      match w.disp.loop with
      | .taken task =>
        match task.prom with
        | .handler h => w.handlers[h]?.map Handler.pc ≠ some .awaiting
        | .job _ => false
      | _ => false
  | .giveUp h =>
    match w.handlers[h]? with
    | some hd => hd.request.starts ∧ w.disp.Granted (.handler h)
    | none => false
  | .handler h =>
    match w.handlers[h]? with
    | some hd => hd.request.starts ∧ hd.pc = .joining ∧ w.handle = none
    | none => false
  | _ => false

/-- Someone will lead the core out of `RUNNING`. -/
def Backed (w : World) : Prop :=
  w.disp.core.st = .running →
    Carried w.disp w.handlers ∨
    Table.Any w.threads (fun _ thread => thread.job.Unfinished) ∨
    ∃ task ∈ w.disp.unexecuted, task.kind = .finishJob

/-- The value of a future decides whether its task has succeeded. -/
theorem granted_of_future {disp : Dispatcher Submitter} {prom : Submitter} {r : Response}
    (distinct : disp.tags.Nodup) (granted : disp.Granted prom)
    (ready : disp.future prom = some r) : r.ok = true := by
  obtain ⟨task, r', held, same, -⟩ | ⟨r', set, ok⟩ := granted
  · have apart := List.disjoint_of_nodup_append distinct
    refine absurd (List.mem_map_of_mem (f := Prod.fst) (Dispatcher.mem_of_future ready)) ?_
    exact fun first => apart first (by simp [held, LoopPc.held, same])
  · obtain rfl := Option.some.inj (ready.symm.trans set)
    exact ok

/-- An acceptance is carried on, or its thread starts, unless the step abandons it. -/
theorem carried_step (ticketed : Ticketed w.disp w.threads w.handlers)
    (taken : w.step event = some next) (kept : w.abandons event = false)
    (carried : Carried w.disp w.handlers) :
    Carried next.disp next.handlers ∨
      Table.Any next.threads (fun _ thread => thread.job.Unfinished) := by
  cases (step_move taken).2 with
  | arrive request => exact .inl carried.spawn
  | dispatch moved =>
    obtain ⟨h, hd, found, carries⟩ := carried
    exact .inl ⟨h, hd, found, (carries_dispatch ticketed moved found).mpr (.inl carries)⟩
  | receive here ready =>
    refine .inl (Table.Any.set carried here ?_)
    rintro ⟨starts, inside | ⟨-, granted⟩⟩
    · contradiction
    · exact carries_onResponse.mpr ⟨starts, granted_of_future ticketed.distinct granted ready⟩
  | idle here free | join here same found exited =>
    exact .inl (Table.Any.set carried here fun carries => carries_afterStop.mpr carries.1)
  | joinFail here free =>
    refine .inl (Table.Any.set carried here fun carries => ?_)
    simp [abandons, here, carries.1, free] at kept
  | giveUp here unset =>
    refine .inl (Table.Any.set carried here ?_)
    rintro ⟨starts, inside | ⟨-, granted⟩⟩
    · contradiction
    · simp [abandons, here, starts] at kept
      exact absurd granted kept
  | launch here free =>
    exact .inr ⟨w.threads.length, _, Table.get_spawn_last, by simp [Job.Unfinished]⟩
  | terminate here same | work found agrees moved | write found moved written
  | writeFail found moved unwritten | clear found moved | finish found moved => exact .inl carried
  | create rd here =>
    exact .inl (Table.Any.set carried here fun carries => ⟨carries.1, .inl rfl⟩)
  | cancel here | wait here same | arm here =>
    exact .inl (Table.Any.set carried here fun carries => ⟨carries.1, .inl rfl⟩)
  | _ here =>
    refine .inl (Table.Any.set carried here fun carries => ?_)
    simp [Handler.Carries, RestPc.within] at carries

/-- An accepted task's handler carries the acceptance, unless the step abandons it. -/
theorem carried_of_accepts {act : LoopAct} {disp : Dispatcher Submitter}
    (ticketed : Ticketed w.disp w.threads w.handlers) (moved : w.disp.loopStep act = some disp)
    (accepting : w.accepts (.dispatch act) = true)
    (kept : w.abandons (.dispatch act) = false) : Carried disp w.handlers := by
  obtain ⟨same, task, held, start, -⟩ := accepts_iff.mp accepting
  cases same
  have pending : task ∈ w.disp.unanswered := by simp [Dispatcher.unanswered, held, LoopPc.held]
  obtain ⟨h, hd, found, asked⟩ | ⟨k, rfl⟩ := ticketed.asked task pending
  · have prom : task.prom = .handler h := Request.task_prom asked
    simp only [abandons, accepting, held, prom, found] at kept
    refine ⟨h, hd, found, (carries_dispatch ticketed moved found).mpr (.inr ?_)⟩
    exact ⟨(Request.task_startJob asked).mp start, by simpa using kept, accepting, task, held,
      prom⟩
  · simp [Task.ofFinishJob] at start

/-- Unless a step abandons an accepted start, `RUNNING` stays backed. -/
theorem Backed.step (held : w.Backed) (ticketed : Ticketed w.disp w.threads w.handlers)
    (kept : w.abandons event = false) (taken : w.step event = some next) : next.Backed := by
  -- a carried acceptance is dealt with once for every step that leaves the core alone
  have carry : Carried w.disp w.handlers →
      Carried next.disp next.handlers ∨
      Table.Any next.threads (fun _ thread => thread.job.Unfinished) ∨
      ∃ task ∈ next.disp.unexecuted, task.kind = .finishJob := fun carried =>
    (carried_step ticketed taken kept carried).imp_right .inl
  cases (step_move taken).2 with
  | dispatch moved =>
    intro running
    obtain ⟨-, core, same⟩ | ⟨task, rfl, there, core, queued⟩ :=
      Dispatcher.unexecuted_loopStep moved
    · rw [core] at running
      obtain carried | working | finish := held running
      · exact carry carried
      · exact .inr (.inl working)
      · exact .inr (.inr (same ▸ finish))
    · rw [core] at running
      obtain ⟨before, -, other⟩ | ⟨init, start⟩ := (Task.execute_running _ _).mp running
      · obtain carried | working | ⟨finish, pending, kind⟩ := held before
        · exact carry carried
        · exact .inr (.inl working)
        · rw [queued] at pending
          obtain rfl | later := List.mem_cons.mp pending
          · exact absurd kind other
          · exact .inr (.inr ⟨finish, later, kind⟩)
      · have accepting := accepts_iff.mpr ⟨rfl, task, there, start, init⟩
        have carried := carried_of_accepts ticketed moved accepting kept
        exact .inl carried
  | submit here asked =>
    intro running
    obtain carried | working | ⟨finish, pending, kind⟩ := held running
    · exact carry carried
    · exact .inr (.inl working)
    · refine .inr (.inr ⟨finish, ?_, kind⟩)
      exact (Dispatcher.unexecuted_push _ _).symm ▸ List.mem_append_left _ pending
  | @finish k thread job obs found moved =>
    intro running
    refine .inr (.inr ⟨.ofFinishJob (.job k), ?_, rfl⟩)
    exact (Dispatcher.unexecuted_push _ _).symm ▸ List.mem_append_right _ (by simp)
  | launch here free =>
    intro running
    exact .inr (.inl ⟨w.threads.length, _, Table.get_spawn_last, by simp [Job.Unfinished]⟩)
  | work found agrees moved =>
    intro running
    obtain carried | working | finish := held running
    · exact carry carried
    · exact .inr (.inl (working.set found fun _ => (Job.of_silent moved).2.2.1.unfinished))
    · exact .inr (.inr finish)
  | write found moved written =>
    intro running
    obtain carried | working | finish := held running
    · exact carry carried
    · exact .inr (.inl (working.set found fun _ => by
        simp [Job.Unfinished, (Job.of_write moved).2.2]))
    · exact .inr (.inr finish)
  | writeFail found moved unwritten =>
    intro running
    obtain carried | working | finish := held running
    · exact carry carried
    · exact .inr (.inl (working.set found fun _ => by
        simp [Job.Unfinished, (Job.of_write moved).2.2]))
    · exact .inr (.inr finish)
  | clear found moved =>
    intro running
    obtain carried | working | finish := held running
    · exact carry carried
    · exact .inr (.inl (working.set found fun _ => by
        simp [Job.Unfinished, (Job.of_clear moved).2.2]))
    · exact .inr (.inr finish)
  | _ =>
    intro running
    obtain carried | others := held running
    · exact carry carried
    · exact .inr others

/-- `RUNNING` is not orphaned. In every run in which no step abandons an accepted start, a state
at rest (every handler answered, queue empty, dispatcher's worker idle) in which the core is
`RUNNING` has a job worker that has not submitted its `FINISH_JOB`. -/
theorem running_at_rest_has_worker (events : List Event) (w : World)
    (reached : Transition.run World.step {} events = some w)
    (kept : Transition.Along World.step (fun w event => w.abandons event = false) {} events)
    (settled : w.Settled) (drained : w.Drained) (running : w.disp.core.st = .running) :
    Table.Any w.threads fun _ thread => thread.job.Unfinished := by
  have both : Ticketed w.disp w.threads w.handlers ∧ w.Backed :=
    Transition.run_invariant
      (fun w : World => Ticketed w.disp w.threads w.handlers ∧ w.Backed)
      (fun ⟨ticketed, held⟩ kept taken => ⟨ticketed.step taken, held.step ticketed kept taken⟩)
      ⟨ticketed Transition.run_nil, fun running => by simp at running⟩ reached kept
  obtain ⟨h, hd, found, starts, carries⟩ | working | ⟨task, pending, -⟩ := both.2 running
  · have done := settled h hd found
    cases pc : hd.pc <;> simp [Handler.done, pc, RestPc.within] at done carries
  · exact working
  · simp [Dispatcher.unexecuted, drained.1, drained.2] at pending

/-- A start call served alone. -/
def backedRun : List Event := initCall 0 ++ startCall 1 5000 fun _ => 0

/-- After a start call served alone the core is `RUNNING` and its worker is there. -/
theorem backedRun_has_worker : ∃ w, Transition.run World.step {} backedRun = some w ∧
    w.disp.core.st = .running ∧ Table.Any w.threads fun _ thread => thread.job.Unfinished :=
  ⟨_, rfl, by decide, running_at_rest_has_worker backedRun _ rfl (by decide) (by decide)
    (by decide) (by decide)⟩

/-- A start handler gives up its wait before the dispatcher's worker reaches its task. -/
def orphanRun : List Event :=
  initCall 0 ++ [.request (.start 5000), .handler 1, .giveUp 1] ++ serve

/-- After a given-up start the service is at rest in `RUNNING` and no worker was ever started. -/
theorem orphanRun_running : ∃ w, Transition.run World.step {} orphanRun = some w ∧
    w.Settled ∧ w.Drained ∧ w.disp.core.st = .running ∧
    ¬ Table.Any w.threads fun _ thread => thread.job.Unfinished :=
  ⟨_, rfl, by decide, by decide, by decide, by decide⟩

end World

end QrEdgeGateway
