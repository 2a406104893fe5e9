import QrEdgeGateway.Verif.Orphan
import QrEdgeGateway.Verif.StopEffect

/-!
# One client at a time

When requests are served one after the other and none is given up, `RUNNING` is a token that
exactly one party holds: the start call whose job the core has accepted, then the worker, then
its `FINISH_JOB` in the queue. The phases below say who holds it; every step of the handler,
of the dispatcher's worker and of the job worker leads from a phase to a phase. A stop request
never meets the token in a later `FINISH_JOB`, since it joins the worker before it submits.
-/

namespace QrEdgeGateway

/-- A task that stops the core was asked for by a request that stops the job first. -/
theorem Request.stops_of_halts {π : Type} {request : Request} {prom : π} {task : Task π}
    (asked : request.task prom = some task) (halts : task.halts = true) :
    request.stops = true := by
  cases request with
  | start timeoutMs =>
    cases asked
    simp [Task.halts, Task.ofStartJob] at halts
  | stop => rfl
  | command cmd baud =>
    cases asked
    have halt : Core.upper cmd = "STOP" := by
      simpa [Task.halts, Task.ofSync, toUpperAscii, Core.upper_upper] using halts
    simp [Request.stops, toUpperAscii, halt]
  | result id => contradiction
  | malformed => contradiction

/-- No request asks for a `FINISH_JOB`. -/
theorem Request.task_ne_finish {π : Type} {request : Request} {prom : π} {task : Task π}
    (asked : request.task prom = some task) : task.kind ≠ .finishJob := by
  cases request with
  | start timeoutMs =>
    cases asked
    simp [Task.ofStartJob]
  | stop =>
    cases asked
    simp [Task.ofStop]
  | command cmd baud =>
    cases asked
    simp [Task.ofSync]
  | result id => contradiction
  | malformed => contradiction

/-- A start request does not stop first. -/
theorem Request.not_stops_of_starts {request : Request} (starts : request.starts = true) :
    request.stops = false := by
  cases request with
  | start timeoutMs => rfl
  | _ => contradiction

/-- A handler that carries an acceptance is in flight. -/
theorem Handler.Carries.not_done {disp : Dispatcher Submitter} {h : Nat} {hd : Handler}
    (carries : hd.Carries disp h) : hd.done = false := by
  obtain ⟨-, inside | ⟨waits, -⟩⟩ := carries
  · cases pc : hd.pc <;> simp [Handler.done, pc, RestPc.within] at inside ⊢
  · simp [Handler.done, waits]

/-- A halting handler is in flight. -/
theorem Handler.not_done_of_halting {hd : Handler} (halting : hd.halting = true) :
    hd.done = false := by
  simp only [Handler.halting, Bool.and_eq_true, Bool.or_eq_true, decide_eq_true_eq] at halting
  obtain ⟨-, here | here⟩ := halting <;> simp [Handler.done, here]

namespace World

variable {w next : World} {event : Event} {events : List Event}

/-- Requests come one at a time and no wait is given up. -/
def oneAtATime (w : World) : Event → Bool
  | .request _ => w.Settled
  | .giveUp _ => false
  | _ => true

/-- What serving one request at a time adds to the bookkeeping. -/
structure Serial (w : World) : Prop where
  /-- The bookkeeping of every run. -/
  sorted : w.Sorted
  /-- One request is in flight. -/
  solo : Table.AtMostOne w.handlers fun hd => hd.done = false
  /-- The handler of a task not answered waits for the answer. -/
  waits : Table.All w.handlers fun h hd =>
    hd.pc = .awaiting ∨ ∀ task ∈ w.disp.unanswered, task.prom ≠ .handler h
  /-- A handler at its join has a thread to join. -/
  joins : Table.All w.handlers fun _ hd => hd.pc = .joining → w.handle ≠ none

/-- The promise of an answered task is on no other task. -/
theorem Ticketed.not_pending {disp : Dispatcher Submitter} {threads : List Thread}
    {handlers : List Handler} {prom : Submitter} {r : Response}
    (held : Ticketed disp threads handlers) (ready : disp.future prom = some r) :
    ∀ task ∈ disp.unanswered, task.prom ≠ prom := by
  rintro task pending rfl
  exact List.disjoint_of_nodup_append held.distinct
    (List.mem_map_of_mem (f := Prod.fst) (Dispatcher.mem_of_future ready))
    (List.mem_map_of_mem pending)

/-- One request is in flight after every step. -/
theorem solo_step (solo : Table.AtMostOne w.handlers fun hd => hd.done = false)
    (serial : w.oneAtATime event = true) (taken : w.step event = some next) :
    Table.AtMostOne next.handlers fun hd => hd.done = false := by
  cases (step_move taken).2 with
  | arrive request =>
    have settled : w.Settled := by simpa [oneAtATime] using serial
    refine solo.spawn fun _ ⟨i, hd, found, flying⟩ => ?_
    exact absurd ((settled i hd found).symm.trans flying) (by simp)
  | terminate here same | work found agrees moved | write found moved written
  | writeFail found moved unwritten | clear found moved | finish found moved
  | dispatch moved => exact solo
  | create rd here => exact solo.set here fun _ => rfl
  | _ here => exact solo.set here fun _ => rfl

/-- A handler with a task not answered waits after every step. -/
theorem waits_step (held : w.Serial) (serial : w.oneAtATime event = true)
    (taken : w.step event = some next) : Table.All next.handlers fun h hd =>
      hd.pc = .awaiting ∨ ∀ task ∈ next.disp.unanswered, task.prom ≠ .handler h := by
  cases (step_move taken).2 with
  | arrive request =>
    refine held.waits.spawn (.inr fun task pending prom => ?_)
    obtain ⟨hd, found, -⟩ := held.sorted.ticketed.handler _
      (prom ▸ Dispatcher.prom_mem_tags pending)
    exact absurd (Table.lt_length found) (Nat.lt_irrefl _)
  | @submit h request task here asked =>
    have prom : task.prom = .handler h := Request.task_prom asked
    intro i hd found
    obtain ⟨rfl, rfl⟩ | ⟨other, old⟩ := Table.get_set found
    · exact .inl rfl
    · refine (held.waits i hd old).imp_right fun unasked pushed pending => ?_
      obtain before | rfl := List.mem_append.mp
        ((Dispatcher.unanswered_push _ _).symm ▸ pending : pushed ∈ w.disp.unanswered ++ [task])
          |>.imp_right List.mem_singleton.mp
      · exact unasked pushed before
      · rw [prom]
        simpa using Ne.symm other
  | receive here ready =>
    exact held.waits.set (.inr (held.sorted.ticketed.not_pending ready))
  | @finish k thread job obs found moved =>
    refine held.waits.mono fun i hd there waits => waits.imp_right fun unasked pushed pending => ?_
    obtain before | rfl := List.mem_append.mp
      ((Dispatcher.unanswered_push _ _).symm ▸ pending :
        pushed ∈ w.disp.unanswered ++ [Task.ofFinishJob (.job k)])
        |>.imp_right List.mem_singleton.mp
    · exact unasked pushed before
    · simp [Task.ofFinishJob]
  | dispatch moved =>
    exact held.waits.mono fun i hd there waits => waits.imp_right fun unasked task pending =>
      unasked task (Dispatcher.unanswered_loopStep moved pending)
  | giveUp here unset => simp [oneAtATime] at serial
  | terminate here same | work found agrees moved | write found moved written
  | writeFail found moved unwritten | clear found moved => exact held.waits
  | create rd here =>
    exact held.waits.set (.inr ((held.waits _ _ here).resolve_left (by simp)))
  | _ here =>
    exact held.waits.set (.inr ((held.waits _ _ here).resolve_left (by simp)))

/-- The sole handler in flight is the only one that can be at its join. -/
theorem joins_step (held : w.Serial) (taken : w.step event = some next) :
    Table.All next.handlers fun _ hd => hd.pc = .joining → next.handle ≠ none := by
  cases (step_move taken).2 with
  | arrive request =>
    refine held.joins.spawn fun joining => ?_
    cases request with
    | command cmd baud =>
      simp only [Request.entry] at joining
      split at joining
      · cases baud <;> contradiction
      · split at joining <;> contradiction
    | _ => contradiction
  | wait here same => exact held.joins.set fun _ => by simp [same]
  | receive here ready =>
    refine held.joins.set fun joining => ?_
    rename_i request r
    cases request with
    | start timeoutMs =>
      simp only [Request.onResponse] at joining
      split at joining <;> contradiction
    | _ => contradiction
  | idle here free =>
    refine held.joins.set fun joining => ?_
    rename_i request
    cases request <;> contradiction
  | @join h k request thread here same found exited =>
    intro i hd there joining
    obtain ⟨rfl, rfl⟩ | ⟨other, old⟩ := Table.get_set there
    · cases request <;> contradiction
    · exact absurd (held.solo i h hd _ old here (by simp [Handler.done, joining]) rfl) other
  | launch here free =>
    intro i hd there joining
    simp [moveTo]
  | terminate here same | work found agrees moved | write found moved written
  | writeFail found moved unwritten | clear found moved | finish found moved
  | dispatch moved => exact held.joins
  | create rd here => exact held.joins.set fun joining => by simp at joining
  | _ here => exact held.joins.set fun joining => by simp at joining

/-- Serving one request at a time keeps all of this. -/
theorem Serial.step (held : w.Serial) (serial : w.oneAtATime event = true)
    (taken : w.step event = some next) : next.Serial :=
  ⟨held.sorted.step taken, solo_step held.solo serial taken, waits_step held serial taken,
    joins_step held taken⟩

/-- No accepted start is abandoned: its handler waits, no wait is given up and no join fails. -/
theorem Serial.not_abandons (held : w.Serial) (serial : w.oneAtATime event = true) :
    w.abandons event = false := by
  by_contra abandoned
  have abandoned : w.abandons event = true := by simpa using abandoned
  unfold abandons at abandoned
  split at abandoned
  · obtain ⟨accepting, rest⟩ := Bool.and_eq_true_iff.mp abandoned
    split at rest
    · rename_i task taken
      split at rest
      · rename_i h prom
        have pending : task ∈ w.disp.unanswered := by
          simp [Dispatcher.unanswered, taken, LoopPc.held]
        obtain ⟨hd, found, -⟩ :=
          held.sorted.ticketed.handler h (prom ▸ Dispatcher.prom_mem_tags pending)
        obtain waits | unasked := held.waits h hd found
        · simp [found, waits] at rest
        · exact unasked task pending prom
      · contradiction
    · contradiction
  · contradiction
  · split at abandoned
    · rename_i hd found
      simp only [decide_eq_true_eq] at abandoned
      exact held.joins _ hd found abandoned.2.1 abandoned.2.2
    · contradiction
  · contradiction

/-- A task that would stop the core belongs to a request that has joined the worker. -/
theorem Serial.halting_of_halts (held : w.Serial) {task : Task Submitter}
    (pending : task ∈ w.disp.unexecuted) (halts : task.halts = true) :
    Table.Any w.handlers fun _ hd => hd.halting = true := by
  have unanswered := w.disp.unexecuted_subset pending
  obtain ⟨h, hd, found, asked⟩ | ⟨k, rfl⟩ := held.sorted.ticketed.asked task unanswered
  · obtain waits | unasked := held.waits h hd found
    · exact ⟨h, hd, found, by simp [Handler.halting, Request.stops_of_halts asked halts, waits]⟩
    · exact absurd (Request.task_prom asked) (unasked task unanswered)
  · simp [Task.halts, Task.ofFinishJob] at halts

/-! ## Who holds the token -/

/-- No `FINISH_JOB` is to be executed. -/
def NoFinish (tasks : List (Task Submitter)) : Prop := ∀ task ∈ tasks, task.kind ≠ .finishJob

/-- The holder of `RUNNING`. -/
inductive Phase (w : World) : Prop where
  /-- Nobody: the core is not running a job. -/
  | idle (still : w.disp.core.st ≠ .running) (calm : w.Calm) (noFinish : NoFinish w.disp.unexecuted)
  /-- The start call whose job was accepted. -/
  | carried (running : w.disp.core.st = .running) (carried : Carried w.disp w.handlers)
      (exited : Table.All w.threads fun _ thread => thread.job.pc = .exited)
      (noFinish : NoFinish w.disp.unexecuted)
  /-- The worker. No stop request is past its join. -/
  | working (running : w.disp.core.st = .running) (free : ¬ Carried w.disp w.handlers)
      (busy : Table.Any w.threads fun _ thread => thread.job.Unfinished)
      (unhalted : ¬ Table.Any w.handlers fun _ hd => hd.halting = true)
      (noFinish : NoFinish w.disp.unexecuted)
  /-- A `FINISH_JOB` in the queue, with no stop before it and no other behind it. -/
  | finishing (running : w.disp.core.st = .running) (calm : w.Calm)
      (before after : List (Task Submitter)) (finish : Task Submitter)
      (split : w.disp.unexecuted = before ++ finish :: after) (kind : finish.kind = .finishJob)
      (first : NoFinish before) (unhalted : ∀ task ∈ before, task.halts = false)
      (last : NoFinish after)

/-- Nothing to finish in a shorter queue. -/
theorem NoFinish.tail {task : Task Submitter} {rest : List (Task Submitter)}
    (noFinish : NoFinish (task :: rest)) : NoFinish rest :=
  fun other later => noFinish other (List.mem_cons_of_mem _ later)

/-- A stop task and an accepted start are never under way together. -/
theorem Serial.not_halts_of_carried (held : w.Serial) (carried : Carried w.disp w.handlers)
    {task : Task Submitter} (pending : task ∈ w.disp.unexecuted) : task.halts = false := by
  by_contra halts
  obtain ⟨i, hd, found, halting⟩ := held.halting_of_halts pending (by simpa using halts)
  obtain ⟨j, other, there, carries⟩ := carried
  obtain rfl := held.solo i j hd other found there (Handler.not_done_of_halting halting)
    carries.not_done
  obtain rfl := Option.some.inj (found.symm.trans there)
  have stops : hd.request.stops = true := (Bool.and_eq_true_iff.mp halting).1
  rw [Request.not_stops_of_starts carries.1] at stops
  contradiction

/-- The dispatcher's worker leads from a phase to a phase. -/
theorem Phase.dispatch {act : LoopAct} {disp : Dispatcher Submitter} (phase : w.Phase)
    (held : w.Serial) (moved : w.disp.loopStep act = some disp)
    (taken : w.step (.dispatch act) = some { w with disp }) : Phase { w with disp } := by
  have kept : w.abandons (.dispatch act) = false := held.not_abandons rfl
  -- a handler that carries an acceptance still does
  have carry : Carried w.disp w.handlers → Carried disp w.handlers := by
    rintro ⟨h, hd, found, carries⟩
    exact ⟨h, hd, found, (carries_dispatch held.sorted.ticketed moved found).mpr (.inl carries)⟩
  -- and none does that did not, unless the task is accepted now
  have free : ¬ Carried w.disp w.handlers → w.accepts (.dispatch act) = false →
      ¬ Carried disp w.handlers := by
    intro before refused carried
    obtain was | accepting := carried_of_step held.sorted.ticketed taken carried
    · exact before was
    · rw [refused] at accepting
      contradiction
  obtain ⟨other, core, same⟩ | ⟨task, rfl, there, core, queued⟩ :=
    Dispatcher.unexecuted_loopStep moved
  · have refused : w.accepts (.dispatch act) = false := by
      by_contra accepting
      obtain ⟨equal, -⟩ := accepts_iff.mp (by simpa using accepting)
      cases equal
      contradiction
    cases phase with
    | idle still calm noFinish =>
      exact .idle (core ▸ still) ⟨calm.exited, free calm.free refused⟩ (same ▸ noFinish)
    | carried running carried exited noFinish =>
      exact .carried (core ▸ running) (carry carried) exited (same ▸ noFinish)
    | working running unheld busy unhalted noFinish =>
      exact .working (core ▸ running) (free unheld refused) busy unhalted (same ▸ noFinish)
    | finishing running calm before after finish split kind first unhalted last =>
      exact .finishing (core ▸ running) ⟨calm.exited, free calm.free refused⟩ before after finish
        (same.trans split) kind first unhalted last
  · have pending : task ∈ w.disp.unexecuted := by simp [queued]
    have busy : w.disp.core.st = .running → w.accepts (.dispatch .execute) = false := by
      intro running
      by_contra accepting
      obtain ⟨-, -, -, -, init⟩ := accepts_iff.mp (by simpa using accepting)
      rw [running] at init
      contradiction
    have stays : w.disp.core.st = .running → task.halts = false → task.kind ≠ .finishJob →
        disp.core.st = .running := fun running unhalted kind =>
      core ▸ (Task.execute_running _ _).mpr (.inl ⟨running, unhalted, kind⟩)
    cases phase with
    | idle still calm noFinish =>
      have rest : NoFinish disp.unexecuted := (queued ▸ noFinish : NoFinish (task :: _)).tail
      by_cases accepting : w.accepts (.dispatch .execute) = true
      · obtain ⟨-, other, same, start, init⟩ := accepts_iff.mp accepting
        obtain rfl := LoopPc.taken.inj (there.symm.trans same)
        have carried := carried_of_accepts held.sorted.ticketed moved accepting kept
        refine .carried ?_ carried calm.exited rest
        exact core ▸ (Task.execute_running _ _).mpr (.inr ⟨init, start⟩)
      · have refused : w.accepts (.dispatch .execute) = false := by simpa using accepting
        refine .idle (fun running => ?_) ⟨calm.exited, free calm.free refused⟩ rest
        rw [show disp.core = _ from core] at running
        obtain ⟨was, -⟩ | ⟨init, start⟩ := (Task.execute_running _ _).mp running
        · exact still was
        · exact accepting (accepts_iff.mpr ⟨rfl, task, there, start, init⟩)
    | carried running carried exited noFinish =>
      refine .carried ?_ (carry carried) exited (queued ▸ noFinish : NoFinish (task :: _)).tail
      exact stays running (held.not_halts_of_carried carried pending) (noFinish task pending)
    | working running unheld active unhalted noFinish =>
      have harmless : task.halts = false := by
        by_contra halts
        exact unhalted (held.halting_of_halts pending (by simpa using halts))
      exact .working (stays running harmless (noFinish task pending)) (free unheld (busy running))
        active unhalted (queued ▸ noFinish : NoFinish (task :: _)).tail
    | finishing running calm before after finish split kind first unhalted last =>
      have calm' : Calm { w with disp } := ⟨calm.exited, free calm.free (busy running)⟩
      cases before with
      | nil =>
        obtain ⟨rfl, rest⟩ := List.cons.inj (queued.symm.trans split)
        refine .idle (fun still => ?_) calm' (by rw [rest]; exact last)
        rw [show disp.core = _ from core] at still
        obtain ⟨-, -, other⟩ | ⟨init, -⟩ := (Task.execute_running _ _).mp still
        · exact other kind
        · rw [running] at init
          contradiction
      | cons head tail =>
        obtain ⟨rfl, rest⟩ := List.cons.inj (queued.symm.trans split)
        exact .finishing
          (stays running (unhalted task (by simp)) (first task (by simp))) calm' tail after finish
          rest kind first.tail (fun other later => unhalted other (List.mem_cons_of_mem _ later))
          last

/-- A handler's step that starts no thread keeps the phase: it may push a task of its own, and
a stop request passes its join only when no worker is left. -/
theorem Phase.frame {extra : List (Task Submitter)} (phase : w.Phase)
    (core : next.disp.core = w.disp.core) (threads : next.threads = w.threads)
    (queued : next.disp.unexecuted = w.disp.unexecuted ++ extra) (harmless : NoFinish extra)
    (carry : Carried w.disp w.handlers → Carried next.disp next.handlers ∨
      Table.Any next.threads fun _ thread => thread.job.Unfinished)
    (free : Carried next.disp next.handlers → Carried w.disp w.handlers)
    (halting : (Table.Any w.threads fun _ thread => thread.job.Unfinished) →
      (Table.Any next.handlers fun _ hd => hd.halting = true) →
      Table.Any w.handlers fun _ hd => hd.halting = true) : next.Phase := by
  have append : NoFinish w.disp.unexecuted → NoFinish next.disp.unexecuted := by
    intro old task pending
    rw [queued] at pending
    exact (List.mem_append.mp pending).elim (old task) (harmless task)
  cases phase with
  | idle still calm noFinish =>
    exact .idle (core ▸ still) ⟨threads ▸ calm.exited, fun now => calm.free (free now)⟩
      (append noFinish)
  | carried running carried exited noFinish =>
    have exited' : Table.All next.threads fun _ thread => thread.job.pc = .exited :=
      threads ▸ exited
    refine .carried (core ▸ running) ((carry carried).resolve_right ?_) exited' (append noFinish)
    rintro ⟨k, thread, found, unfinished⟩
    exact unfinished (exited' k thread found)
  | working running unheld busy unhalted noFinish =>
    exact .working (core ▸ running) (fun now => unheld (free now)) (threads ▸ busy)
      (fun now => unhalted (halting busy now)) (append noFinish)
  | finishing running calm before after finish split kind first unhalted last =>
    refine .finishing (core ▸ running) ⟨threads ▸ calm.exited, fun now => calm.free (free now)⟩
      before (after ++ extra) finish ?_ kind first unhalted ?_
    · rw [queued, split]
      simp
    · intro task pending
      exact (List.mem_append.mp pending).elim (last task) (harmless task)

/-- Only in its own phase does a worker take a step. -/
theorem Phase.of_work {k : Nat} {thread : Thread} (phase : w.Phase)
    (found : w.threads[k]? = some thread) (unfinished : thread.job.Unfinished) :
    w.disp.core.st = .running ∧ ¬ Carried w.disp w.handlers ∧
      (¬ Table.Any w.handlers fun _ hd => hd.halting = true) ∧ NoFinish w.disp.unexecuted := by
  cases phase with
  | idle still calm noFinish => exact absurd (calm.exited k thread found) unfinished
  | carried running carried exited noFinish => exact absurd (exited k thread found) unfinished
  | working running free busy unhalted noFinish => exact ⟨running, free, unhalted, noFinish⟩
  | finishing running calm => exact absurd (calm.exited k thread found) unfinished

/-- Only in its own phase does a start call launch its thread. -/
theorem Phase.of_carried (phase : w.Phase) (carried : Carried w.disp w.handlers) :
    w.disp.core.st = .running ∧ (Table.All w.threads fun _ thread => thread.job.pc = .exited) ∧
      NoFinish w.disp.unexecuted := by
  cases phase with
  | idle still calm noFinish => exact absurd carried calm.free
  | carried running carried exited noFinish => exact ⟨running, exited, noFinish⟩
  | working running free => exact absurd carried free
  | finishing running calm => exact absurd carried calm.free

/-- A worker's step before its submission keeps the token with it. -/
theorem Phase.work {k : Nat} {thread : Thread} {job : Job} (phase : w.Phase)
    (found : w.threads[k]? = some thread) (was : thread.job.Unfinished) (still : job.Unfinished)
    (core : next.disp = w.disp) (handlers : next.handlers = w.handlers)
    (threads : next.threads = w.threads.set k { thread with job }) : next.Phase := by
  obtain ⟨running, free, unhalted, noFinish⟩ := phase.of_work found was
  refine .working (core ▸ running) (core ▸ handlers ▸ free) ?_ (handlers ▸ unhalted)
    (core ▸ noFinish)
  exact ⟨k, _, threads ▸ Table.get_set_self found, still⟩

/-- Every step leads from a phase to a phase. -/
theorem Phase.step (phase : w.Phase) (held : w.Serial) (serial : w.oneAtATime event = true)
    (taken : w.step event = some next) : next.Phase := by
  have after := held.step serial taken
  have carry := carried_step held.sorted.ticketed taken (held.not_abandons serial)
  have free := carried_of_step held.sorted.ticketed taken
  have nothing : NoFinish [] := fun task pending => by simp at pending
  have refused : ∀ {h}, w.accepts (.handler h) ≠ true := by simp [accepts]
  cases (step_move taken).2 with
  | dispatch moved => exact phase.dispatch held moved taken
  | arrive request =>
    refine phase.frame rfl rfl (List.append_nil _).symm nothing carry
      (fun now => (free now).resolve_right (by simp [accepts])) fun _ now => ?_
    obtain old | fresh := Table.Any.of_spawn now
    · exact old
    · simp [halting_entry] at fresh
  | submit here asked =>
    refine phase.frame rfl rfl (Dispatcher.unexecuted_push _ _) ?_ carry
      (fun now => (free now).resolve_right refused) fun _ now => ?_
    · intro task pending
      obtain rfl := List.mem_singleton.mp pending
      exact Request.task_ne_finish asked
    · exact Table.Any.of_set now here fun halting => by simpa [Handler.halting] using halting
  | configure here =>
    refine phase.frame rfl rfl (List.append_nil _).symm nothing carry
      (fun now => (free now).resolve_right refused) fun _ now => ?_
    refine Table.Any.of_set now here fun halting => ?_
    have typed : Request.stops _ = false := held.sorted.typed _ _ here
    simp [Handler.halting, typed] at halting
  | receive here ready =>
    refine phase.frame rfl rfl (List.append_nil _).symm nothing carry
      (fun now => (free now).resolve_right refused) fun _ now => ?_
    exact Table.Any.of_set now here fun halting => by simp [halting_onResponse] at halting
  | idle here unowned =>
    refine phase.frame rfl rfl (List.append_nil _).symm nothing carry
      (fun now => (free now).resolve_right refused) fun active now => ?_
    obtain ⟨k, thread, found, busy⟩ := active
    exact absurd (held.sorted.joinable.exited_of_none unowned k thread found) busy
  | join here same found exited =>
    refine phase.frame rfl rfl (List.append_nil _).symm nothing carry
      (fun now => (free now).resolve_right refused) fun active now => ?_
    obtain ⟨k, thread, there, busy⟩ := active
    exact absurd (held.sorted.joinable.exited_of_joined same found exited k thread there) busy
  | @launch h request id here unowned =>
    have starts : request.starts = true := held.sorted.typed h _ here
    obtain ⟨running, -, noFinish⟩ := phase.of_carried ⟨h, _, here, starts, .inl rfl⟩
    have mine : (w.handlers.set h ⟨request, .replying id⟩)[h]? = some ⟨request, .replying id⟩ :=
      Table.get_set_self here
    refine .working running ?_ ⟨w.threads.length, _, Table.get_spawn_last, by
      simp [Job.Unfinished]⟩ ?_ noFinish
    · rintro ⟨i, hd, found, carries⟩
      obtain rfl := after.solo i h hd _ found mine carries.not_done rfl
      obtain rfl := Option.some.inj (found.symm.trans mine)
      simp [Handler.Carries, RestPc.within] at carries
    · rintro ⟨i, hd, found, halting⟩
      obtain rfl := after.solo i h hd _ found mine (Handler.not_done_of_halting halting) rfl
      obtain rfl := Option.some.inj (found.symm.trans mine)
      simp [Handler.halting] at halting
  | terminate here same =>
    exact phase.frame rfl rfl (List.append_nil _).symm nothing carry
      (fun now => (free now).resolve_right refused) fun _ now => now
  | work found agrees moved =>
    exact phase.work found (Job.unfinished_of_step moved) (Job.of_silent moved).2.2.1.unfinished
      rfl rfl rfl
  | write found moved written =>
    exact phase.work found (Job.unfinished_of_step moved)
      (by simp [Job.Unfinished, (Job.of_write moved).2.2]) rfl rfl rfl
  | writeFail found moved unwritten =>
    exact phase.work found (Job.unfinished_of_step moved)
      (by simp [Job.Unfinished, (Job.of_write moved).2.2]) rfl rfl rfl
  | clear found moved =>
    exact phase.work found (Job.unfinished_of_step moved)
      (by simp [Job.Unfinished, (Job.of_clear moved).2.2]) rfl rfl rfl
  | @finish k thread job obs found moved =>
    have busy := Job.unfinished_of_step moved
    obtain ⟨running, unheld, unhalted, noFinish⟩ := phase.of_work found busy
    refine .finishing running ⟨?_, unheld⟩ w.disp.unexecuted [] (.ofFinishJob (.job k))
      (Dispatcher.unexecuted_push _ _) rfl noFinish ?_ nothing
    · intro i other there
      obtain ⟨rfl, rfl⟩ | ⟨differs, old⟩ := Table.get_set there
      · exact (Job.of_finish moved).2.2
      · by_contra running
        have mine := held.sorted.joinable.sole k thread found busy
        have its := held.sorted.joinable.sole i other old running
        exact differs (Option.some.inj (its.symm.trans mine))
    · intro task pending
      by_contra halts
      exact unhalted (held.halting_of_halts pending (by simpa using halts))
  | create rd here =>
    exact phase.frame rfl rfl (List.append_nil _).symm nothing carry
      (fun now => (free now).resolve_right (by simp [accepts])) fun _ now =>
        Table.Any.of_set now here fun halting => by simp [Handler.halting] at halting
  | giveUp here unset => simp [oneAtATime] at serial
  | _ here =>
    exact phase.frame rfl rfl (List.append_nil _).symm nothing carry
      (fun now => (free now).resolve_right refused) fun _ now =>
        Table.Any.of_set now here fun halting => by simp [Handler.halting] at halting

/-- A run that serves one request at a time is in a phase throughout. -/
theorem phase_run (reached : Transition.run World.step {} events = some w)
    (serial : Transition.Along World.step (fun w event => w.oneAtATime event = true) {} events) :
    w.Serial ∧ w.Phase := by
  refine Transition.run_invariant (fun w : World => w.Serial ∧ w.Phase)
    (fun ⟨held, phase⟩ serial taken => ⟨held.step serial taken, phase.step held serial taken⟩)
    ⟨⟨sorted Transition.run_nil, fun i j a b found => by simp at found, by simp, by simp⟩, ?_⟩
    reached serial
  refine .idle (by simp) ⟨by simp, fun ⟨i, hd, found, _⟩ => by simp at found⟩ ?_
  intro task pending
  simp [Dispatcher.unexecuted] at pending

/-- At rest no handler carries an acceptance. -/
theorem Settled.not_carried (settled : w.Settled) : ¬ Carried w.disp w.handlers := by
  rintro ⟨h, hd, found, carries⟩
  exact absurd ((settled h hd found).symm.trans carries.not_done) (by simp)

/-- At rest the core is `RUNNING` exactly while a worker is unfinished. -/
theorem Phase.at_rest (phase : w.Phase) (settled : w.Settled) (drained : w.Drained) :
    w.disp.core.st = .running ↔ Table.Any w.threads fun _ thread => thread.job.Unfinished := by
  have empty : w.disp.unexecuted = [] := by simp [Dispatcher.unexecuted, drained.1, drained.2]
  cases phase with
  | idle still calm noFinish =>
    refine ⟨fun running => absurd running still, ?_⟩
    rintro ⟨k, thread, found, busy⟩
    exact absurd (calm.exited k thread found) busy
  | carried running carried exited noFinish => exact absurd carried settled.not_carried
  | working running free busy unhalted noFinish => exact ⟨fun _ => busy, fun _ => running⟩
  | finishing running calm before after finish split =>
    rw [empty] at split
    simp at split

/-- While a `FINISH_JOB` is about to end `RUNNING` no other job is accepted, working or about to
end. -/
theorem Phase.finish_last {task : Task Submitter} (phase : w.Phase)
    (taken : w.disp.loop = .taken task) (kind : task.kind = .finishJob) :
    w.Calm ∧ NoFinish w.disp.queue := by
  have queued : w.disp.unexecuted = task :: w.disp.queue := by
    simp [Dispatcher.unexecuted, taken]
  have pending : task ∈ w.disp.unexecuted := by simp [queued]
  cases phase with
  | idle still calm noFinish => exact absurd kind (noFinish task pending)
  | carried running carried exited noFinish => exact absurd kind (noFinish task pending)
  | working running free busy unhalted noFinish => exact absurd kind (noFinish task pending)
  | finishing running calm before after finish split kind' first unhalted last =>
    cases before with
    | nil =>
      obtain ⟨-, rest⟩ := List.cons.inj (queued.symm.trans split)
      exact ⟨calm, rest ▸ last⟩
    | cons head tail =>
      obtain ⟨rfl, -⟩ := List.cons.inj (queued.symm.trans split)
      exact absurd kind (first task (by simp))

/-- Job accounting under one client at a time. In every run that serves one request at a time
and gives up no wait: at rest the core is `RUNNING` exactly if exactly one worker has not
submitted its `FINISH_JOB`, every record but that worker's is terminal, and outside `RUNNING`
every record is; and whenever a `FINISH_JOB` is about to take the core out of `RUNNING`, no
accepted start is unlaunched, no worker is unfinished and no other `FINISH_JOB` is queued. -/
theorem one_client_accounting (events : List Event) (w : World)
    (reached : Transition.run World.step {} events = some w)
    (serial : Transition.Along World.step (fun w event => w.oneAtATime event = true) {} events) :
    (w.Settled → w.Drained →
      (w.disp.core.st = .running ↔
        ∃! k : Nat, ∃ thread : Thread, w.threads[k]? = some thread ∧ thread.job.Unfinished) ∧
      (∀ id res, w.store.get id = some res → res.status.Terminal ∨
        Table.Any w.threads fun _ thread => thread.job.Unfinished ∧ thread.job.id = id) ∧
      (w.disp.core.st ≠ .running → ∀ id res, w.store.get id = some res →
        res.status.Terminal)) ∧
    ∀ task, w.disp.loop = .taken task → task.kind = .finishJob → w.disp.core.st = .running →
      ¬ Carried w.disp w.handlers ∧
      (¬ Table.Any w.threads fun _ thread => thread.job.Unfinished) ∧
      ∀ other ∈ w.disp.queue, other.kind ≠ .finishJob := by
  obtain ⟨held, phase⟩ := phase_run reached serial
  constructor
  · intro settled drained
    have rest := phase.at_rest settled drained
    -- a pending record at rest is a live worker's
    have owned : ∀ id res, w.store.get id = some res → res.status.Terminal ∨
        Table.Any w.threads fun _ thread => thread.job.Unfinished ∧ thread.job.id = id := by
      intro id res found
      by_cases pending : res.status = .pending
      · obtain ⟨i, hd, here, starting⟩ | ⟨k, thread, here, live, its⟩ :=
          (recorded reached).owned id res found pending
        · have done := settled i hd here
          cases pc : hd.pc <;> simp [Handler.done, RestPc.starting, pc] at done starting
        · exact .inr ⟨k, thread, here, live.unfinished, its⟩
      · exact .inl pending
    refine ⟨⟨fun running => ?_, ?_⟩, owned, ?_⟩
    · obtain ⟨k, thread, found, busy⟩ := rest.mp running
      refine ⟨k, ⟨thread, found, busy⟩, ?_⟩
      rintro i ⟨other, there, running'⟩
      have mine := held.sorted.joinable.sole k thread found busy
      have its := held.sorted.joinable.sole i other there running'
      exact Option.some.inj (its.symm.trans mine)
    · rintro ⟨k, ⟨thread, found, busy⟩, -⟩
      exact rest.mpr ⟨k, thread, found, busy⟩
    · intro still id res found
      obtain terminal | ⟨k, thread, here, busy, -⟩ := owned id res found
      · exact terminal
      · exact absurd (rest.mpr ⟨k, thread, here, busy⟩) still
  · intro task taken kind running
    obtain ⟨calm, last⟩ := phase.finish_last taken kind
    refine ⟨calm.free, ?_, last⟩
    rintro ⟨k, thread, found, busy⟩
    exact busy (calm.exited k thread found)

/-- One client initialises, starts a job that times out, and starts another. -/
def clientRun : List Event :=
  initCall 0 ++ (startCall 1 1 fun _ => 0) ++
    [.job 0 (.clock 0), .job 0 (.running true), .job 0 (.clock 1000000), .job 0 .tau,
      .job 0 .tau, .job 0 .tau] ++ serve ++ [.request (.start 5000), .handler 2] ++ serve ++
    [.handler 2, .handler 2, .handler 2, .handler 2, .draw 2 fun _ => 1, .handler 2, .handler 2,
      .handler 2]

/-- After both calls the core is `RUNNING` for the second job, whose worker is the only one. -/
theorem clientRun_accounted : ∃ w, Transition.run World.step {} clientRun = some w ∧
    w.disp.core.st = .running ∧
    ∃! k : Nat, ∃ thread : Thread, w.threads[k]? = some thread ∧ thread.job.Unfinished :=
  ⟨_, rfl, by decide, ((one_client_accounting clientRun _ rfl (by decide)).1 (by decide)
    (by decide)).1.mp (by decide)⟩

end World

end QrEdgeGateway
