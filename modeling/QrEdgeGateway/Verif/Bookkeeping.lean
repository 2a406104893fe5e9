import QrEdgeGateway.Service

/-!
# Bookkeeping of the service

Three invariants hold in every reachable state, whatever the schedule. The thread object
represents the newest thread and any thread that still runs. Every record still pending has
someone who will write it, and nobody refers to a record that is not there. Every promise
belongs to the handler or the worker that pushed its task.
-/

namespace QrEdgeGateway

namespace World

variable {w next : World} {event : Event} {events : List Event}

/-! ## The thread object -/

/-- The handle is that of the newest thread, and no other thread is still running. -/
structure Joinable (handle : Option Nat) (threads : List Thread) : Prop where
  /-- The handle represents the newest thread. -/
  newest : ∀ k, handle = some k → k + 1 = threads.length
  /-- A thread that has not exited is the one represented. -/
  sole : Table.All threads fun k thread => thread.job.Unfinished → handle = some k

namespace Joinable

variable {handle : Option Nat} {threads : List Thread} {k : Nat} {thread : Thread}

/-- Without a handle every thread has exited. -/
theorem exited_of_none (held : Joinable handle threads) (free : handle = none) :
    Table.All threads fun _ thread => thread.job.pc = .exited := by
  intro i other found
  by_contra running
  simp [free] at held
  exact absurd (held.sole i other found running) (by simp)

/-- Once the represented thread has exited, every thread has. -/
theorem exited_of_joined (held : Joinable handle threads) (same : handle = some k)
    (found : threads[k]? = some thread) (exited : thread.job.pc = .exited) :
    Table.All threads fun _ thread => thread.job.pc = .exited := by
  intro i other there
  by_contra running
  obtain rfl : k = i := Option.some.inj (same.symm.trans (held.sole i other there running))
  obtain rfl := Option.some.inj (found.symm.trans there)
  exact running exited

/-- A thread's own steps keep the handle right. -/
theorem set {job : Job} (held : Joinable handle threads) (found : threads[k]? = some thread)
    (running : thread.job.Unfinished) :
    Joinable handle (threads.set k { thread with job }) where
  newest i same := by rw [List.length_set]; exact held.newest i same
  sole := held.sole.set fun _ => held.sole k thread found running

/-- A thread started over a free handle becomes the represented one. -/
theorem spawn (held : Joinable handle threads) (free : handle = none) :
    Joinable (some threads.length) (threads ++ [thread]) where
  newest i same := by
    obtain rfl := Option.some.inj same
    simp
  sole := by
    refine Table.All.spawn ?_ fun _ => rfl
    intro i other found running
    exact absurd (held.exited_of_none free i other found) running

/-- Joining an exited thread frees the handle. -/
theorem release (exited : Table.All threads fun _ thread => thread.job.pc = .exited) :
    Joinable none threads where
  newest i same := by simp at same
  sole i other found running := absurd (exited i other found) running

end Joinable

/-- Every step keeps the handle right. -/
theorem Joinable.step (held : Joinable w.handle w.threads) (taken : w.step event = some next) :
    Joinable next.handle next.threads := by
  cases (step_move taken).2 with
  | join here same found exited => exact .release (held.exited_of_joined same found exited)
  | launch here free => exact held.spawn free
  | work found agrees moved => exact held.set found (Job.unfinished_of_step moved)
  | write found moved written => exact held.set found (Job.unfinished_of_step moved)
  | writeFail found moved unwritten => exact held.set found (Job.unfinished_of_step moved)
  | clear found moved => exact held.set found (Job.unfinished_of_step moved)
  | finish found moved => exact held.set found (Job.unfinished_of_step moved)
  | _ => exact held

/-- In every reachable state the handle is right. -/
theorem joinable (reached : Transition.run World.step {} events = some w) :
    Joinable w.handle w.threads :=
  Transition.run_stable (fun w : World => Joinable w.handle w.threads)
    (fun held taken => held.step taken) ⟨by simp, by simp⟩ reached

/-! ## Records -/

end World

/-- The identifier of the record a start call has created and not yet handed to a thread. -/
def RestPc.starting : RestPc → Option String
  | .arming id => some id
  | .launching id => some id
  | _ => none

/-- The identifier of a record a handler relies on. -/
def RestPc.relied : RestPc → Option String
  | .arming id => some id
  | .launching id => some id
  | .fetching id => some id
  | _ => none

/-- The control points a `/result` handler passes. -/
def RestPc.reads : RestPc → Bool
  | .looking _ => true
  | .fetching _ => true
  | .answered _ => true
  | _ => false

/-- After `JobRunner::stop` no record is relied on yet. -/
@[simp] theorem Request.relied_afterStop (request : Request) :
    request.afterStop.relied = none := by
  cases request <;> rfl

/-- After `JobRunner::stop` no record is created yet. -/
@[simp] theorem Request.starting_afterStop (request : Request) :
    request.afterStop.starting = none := by
  cases request <;> rfl

/-- A response leads to no record. -/
@[simp] theorem Request.relied_onResponse (request : Request) (r : Response) :
    (request.onResponse r).relied = none := by
  obtain here | ⟨reply, here⟩ := request.onResponse_cases r <;> rw [here] <;> rfl

namespace World

variable {w next : World} {event : Event} {events : List Event}

/-- No record that anybody refers to is missing, and every pending record has a writer. -/
structure Recorded (store : JobStore) (threads : List Thread) (handlers : List Handler) :
    Prop where
  /-- Every worker's record is there. -/
  worker : Table.All threads fun _ thread => (store.get thread.job.id).isSome = true
  /-- So is every record a handler relies on. -/
  handler : Table.All handlers fun _ hd =>
    ∀ id, hd.pc.relied = some id → (store.get id).isSome = true
  /-- A pending record belongs to a start call under way or to a live worker. -/
  owned : ∀ id res, store.get id = some res → res.status = .pending →
    Table.Any handlers (fun _ hd => hd.pc.starting = some id) ∨
    Table.Any threads (fun _ thread => thread.job.Live ∧ thread.job.id = id)

namespace Recorded

variable {store : JobStore} {threads : List Thread} {handlers : List Handler} {h k : Nat}
  {request : Request} {pc pc' : RestPc} {thread : Thread} {job : Job}

/-- A handler's step that neither takes up nor drops a record. -/
theorem move (held : Recorded store threads handlers)
    (here : handlers[h]? = some ⟨request, pc⟩)
    (relies : ∀ id, pc'.relied = some id → (store.get id).isSome = true)
    (keeps : ∀ id, pc.starting = some id → pc'.starting = some id) :
    Recorded store threads (handlers.set h ⟨request, pc'⟩) where
  worker := held.worker
  handler := held.handler.set relies
  owned id res found pending := by
    obtain starting | live := held.owned id res found pending
    · exact .inl (starting.set here (keeps id))
    · exact .inr live

/-- A worker's step before its write. -/
theorem work (held : Recorded store threads handlers) (found : threads[k]? = some thread)
    (same : job.id = thread.job.id) (live : thread.job.Live → job.Live) :
    Recorded store (threads.set k { thread with job }) handlers where
  worker := held.worker.set (by rw [same]; exact held.worker k thread found)
  handler := held.handler
  owned id res there pending := by
    obtain starting | owner := held.owned id res there pending
    · exact .inl starting
    · exact .inr (owner.set found fun ⟨was, its⟩ => ⟨live was, same.trans its⟩)

/-- A created record is owned by the call that created it. -/
theorem create {id : String} (held : Recorded store threads handlers)
    (here : handlers[h]? = some ⟨request, .creating⟩) :
    Recorded (store.create id) threads (handlers.set h ⟨request, .arming id⟩) where
  worker := held.worker.mono fun _ thread _ => JobStore.get_create_isSome store id thread.job.id
  handler := by
    refine Table.All.set (held.handler.mono fun _ hd _ relies other named =>
      JobStore.get_create_isSome store id other (relies other named)) ?_
    intro other named
    obtain rfl := Option.some.inj named
    simp [JobStore.get_create]
  owned other res found pending := by
    by_cases same : other = id
    · subst same
      exact .inl ⟨h, _, Table.get_set_self here, rfl⟩
    · rw [JobStore.get_create, if_neg same] at found
      obtain starting | live := held.owned other res found pending
      · exact .inl (starting.set here fun impossible => by simp [RestPc.starting] at impossible)
      · exact .inr live

/-- A launched thread takes the record over. -/
theorem launch {id : String} {timeoutMs : Int} (held : Recorded store threads handlers)
    (here : handlers[h]? = some ⟨request, .launching id⟩) :
    Recorded store (threads ++ [⟨h, { id, timeoutMs }⟩])
      (handlers.set h ⟨request, .replying id⟩) where
  worker := held.worker.spawn (held.handler h _ here id rfl)
  handler := held.handler.set (by simp [RestPc.relied])
  owned other res found pending := by
    obtain ⟨i, hd, there, starting⟩ | live := held.owned other res found pending
    · by_cases same : i = h
      · subst same
        obtain rfl := Option.some.inj (there.symm.trans here)
        obtain rfl := Option.some.inj starting
        exact .inr ⟨threads.length, _, Table.get_spawn_last, rfl, rfl⟩
      · exact .inl ⟨i, hd, (Table.get_set_other same).trans there, starting⟩
    · exact .inr live.spawn

/-- A worker's write leaves its own record terminal and every other as it was. -/
theorem write {outcome : Outcome} {after : JobStore} (held : Recorded store threads handlers)
    (found : threads[k]? = some thread) (same : job.id = thread.job.id)
    (written : store.write job.id outcome = some after) :
    Recorded after (threads.set k { thread with job }) handlers := by
  have kept : ∀ id, (store.get id).isSome = true → (after.get id).isSome = true := by
    intro id present
    rw [JobStore.get_write written]
    split
    · rfl
    · exact present
  refine ⟨?_, held.handler.mono fun _ hd _ relies id named => kept id (relies id named), ?_⟩
  · refine Table.All.set (held.worker.mono fun _ other _ => kept _) ?_
    exact kept _ (by rw [same]; exact held.worker k thread found)
  · intro id res there pending
    rw [JobStore.get_write written] at there
    split at there
    · obtain rfl := Option.some.inj there
      exact absurd pending outcome.record_terminal
    · rename_i other
      obtain starting | owner := held.owned id res there pending
      · exact .inl starting
      · refine .inr (owner.set found fun ⟨_, its⟩ => absurd ?_ other)
        rw [same]
        exact its.symm

/-- A request that has just arrived refers to no record. -/
theorem arrive (held : Recorded store threads handlers) :
    Recorded store threads (handlers ++ [⟨request, request.entry⟩]) where
  worker := held.worker
  handler := by
    refine held.handler.spawn fun id named => ?_
    cases request with
    | command cmd baud =>
      simp only [Request.entry] at named
      split at named
      · cases baud <;> simp [RestPc.relied] at named
      · split at named <;> simp [RestPc.relied] at named
    | _ => simp [Request.entry, RestPc.relied] at named
  owned id res found pending :=
    (held.owned id res found pending).imp_left Table.Any.spawn

end Recorded

/-- Every step keeps the records accounted for. -/
theorem Recorded.step (held : Recorded w.store w.threads w.handlers)
    (taken : w.step event = some next) : Recorded next.store next.threads next.handlers := by
  cases (step_move taken).2 with
  | arrive request => exact held.arrive
  | terminate here same => exact held
  | dispatch moved => exact held
  | create rd here => exact held.create here
  | launch here free => exact held.launch here
  | arm here =>
    refine held.move here (fun id named => ?_) fun id named => named
    exact held.handler _ _ here id named
  | look here present =>
    refine held.move here (fun id named => ?_) fun id named => ?_
    · obtain rfl := Option.some.inj named
      exact present
    · simp [RestPc.starting] at named
  | work found agrees moved =>
    obtain ⟨same, -, live, -⟩ := Job.of_silent moved
    exact held.work found same fun _ => live
  | write found moved written => exact held.write found (Job.of_write moved).1 written
  | writeFail found moved unwritten =>
    have present : (w.store.get _).isSome = true := held.worker _ _ found
    rw [← (Job.of_write moved).1, ← JobStore.write_isSome, unwritten] at present
    contradiction
  | clear found moved =>
    obtain ⟨same, clearing, -⟩ := Job.of_clear moved
    exact held.work found same fun live => by simp [Job.Live, clearing, JobPc.written] at live
  | finish found moved =>
    obtain ⟨same, finishing, -⟩ := Job.of_finish moved
    exact held.work found same fun live => by simp [Job.Live, finishing, JobPc.written] at live
  | receive here ready | idle here free | join here same found exited =>
    exact held.move here (by simp) (by simp [RestPc.starting])
  | reject here | configure here | submit here asked | cancel here | wait here same
  | joinFail here free | reply here | miss here absent | fetch here found
  | fetchFail here absent | giveUp here unset =>
    exact held.move here (by simp [RestPc.relied]) (by simp [RestPc.starting])

/-- In every reachable state the records are accounted for. -/
theorem recorded (reached : Transition.run World.step {} events = some w) :
    Recorded w.store w.threads w.handlers :=
  Transition.run_stable (fun w : World => Recorded w.store w.threads w.handlers)
    (fun held taken => held.step taken)
    ⟨by simp, by simp, fun id res found => by simp [JobStore.get] at found⟩ reached

/-! ## Promises -/

end World

/-- The handler has not submitted its task. -/
def Handler.fresh (hd : Handler) : Bool :=
  match hd.pc with
  | .awaiting => false
  | .answered _ => false
  | .cancelling => !hd.request.starts
  | .checking => !hd.request.starts
  | .joining => !hd.request.starts
  | .creating => !hd.request.starts
  | .arming _ => !hd.request.starts
  | .launching _ => !hd.request.starts
  | .replying _ => !hd.request.starts
  | _ => true

/-- A request's task carries the promise it was given. -/
theorem Request.task_prom {π : Type} {request : Request} {prom : π} {task : Task π}
    (asked : request.task prom = some task) : task.prom = prom := by
  cases request with
  | start timeoutMs =>
    cases asked
    rfl
  | stop =>
    cases asked
    rfl
  | command cmd baud =>
    cases asked
    rfl
  | result id => contradiction
  | malformed => contradiction

/-- A response leaves a handler past its submission. -/
theorem Request.fresh_onResponse (request : Request) (r : Response) :
    (⟨request, request.onResponse r⟩ : Handler).fresh = false := by
  cases request with
  | start timeoutMs =>
    simp only [Request.onResponse]
    split <;> rfl
  | _ => rfl

/-- A start call that leaves `JobRunner::stop` is past its submission. -/
theorem Request.fresh_afterStop {request : Request} (starts : request.starts = true) :
    (⟨request, request.afterStop⟩ : Handler).fresh = false := by
  cases request with
  | start timeoutMs => rfl
  | _ => contradiction

namespace World

variable {w next : World} {event : Event} {events : List Event}

/-- Every promise belongs to one handler or worker, and every task is the one it asked for. -/
structure Ticketed (disp : Dispatcher Submitter) (threads : List Thread)
    (handlers : List Handler) : Prop where
  /-- No promise is used twice. -/
  distinct : disp.tags.Nodup
  /-- A handler's promise was pushed by that handler. -/
  handler : ∀ h, Submitter.handler h ∈ disp.tags →
    ∃ hd, handlers[h]? = some hd ∧ hd.fresh = false
  /-- A worker's promise was pushed by that worker's last step. -/
  job : ∀ k, Submitter.job k ∈ disp.tags →
    ∃ thread, threads[k]? = some thread ∧ thread.job.pc = .exited
  /-- A task not answered is its handler's, or the `FINISH_JOB` of a worker. -/
  asked : ∀ task ∈ disp.unanswered,
    (∃ h, ∃ hd : Handler, handlers[h]? = some hd ∧ hd.request.task (.handler h) = some task) ∨
    ∃ k, task = .ofFinishJob (.job k)

namespace Ticketed

variable {disp after : Dispatcher Submitter} {threads : List Thread} {handlers : List Handler}
  {h k : Nat} {request : Request} {pc pc' : RestPc} {thread : Thread} {job : Job}

/-- A handler's step after its submission, or one that leaves it before. -/
theorem move (held : Ticketed disp threads handlers) (here : handlers[h]? = some ⟨request, pc⟩)
    (keeps : (⟨request, pc⟩ : Handler).fresh = false →
      (⟨request, pc'⟩ : Handler).fresh = false) :
    Ticketed disp threads (handlers.set h ⟨request, pc'⟩) where
  distinct := held.distinct
  handler i pushed := by
    obtain ⟨hd, found, past⟩ := held.handler i pushed
    by_cases same : i = h
    · subst same
      obtain rfl := Option.some.inj (found.symm.trans here)
      exact ⟨_, Table.get_set_self here, keeps past⟩
    · exact ⟨hd, (Table.get_set_other same).trans found, past⟩
  job := held.job
  asked task pending := by
    obtain ⟨i, hd, found, its⟩ | finish := held.asked task pending
    · by_cases same : i = h
      · subst same
        obtain rfl := Option.some.inj (found.symm.trans here)
        exact .inl ⟨i, _, Table.get_set_self here, its⟩
      · exact .inl ⟨i, hd, (Table.get_set_other same).trans found, its⟩
    · exact .inr finish

/-- A handler that has not submitted has not used its promise. -/
theorem unused_of_fresh {hd : Handler} (held : Ticketed disp threads handlers)
    (here : handlers[h]? = some hd) (fresh : hd.fresh = true) :
    Submitter.handler h ∉ disp.tags := by
  intro pushed
  obtain ⟨other, found, past⟩ := held.handler h pushed
  obtain rfl := Option.some.inj (found.symm.trans here)
  rw [fresh] at past
  contradiction

/-- Nor has a worker that has not exited. -/
theorem unused_of_unfinished (held : Ticketed disp threads handlers)
    (found : threads[k]? = some thread) (running : thread.job.Unfinished) :
    Submitter.job k ∉ disp.tags := by
  intro pushed
  obtain ⟨other, there, gone⟩ := held.job k pushed
  obtain rfl := Option.some.inj (there.symm.trans found)
  exact running gone

/-- A handler's submission. -/
theorem submit {task : Task Submitter} (held : Ticketed disp threads handlers)
    (here : handlers[h]? = some ⟨request, .submitting⟩)
    (asked : request.task (.handler h) = some task) :
    Ticketed (disp.push task) threads (handlers.set h ⟨request, .awaiting⟩) := by
  have moved : Ticketed disp threads (handlers.set h ⟨request, .awaiting⟩) :=
    held.move here fun _ => rfl
  have unused : Submitter.handler h ∉ disp.tags := held.unused_of_fresh here rfl
  have prom : task.prom = .handler h := Request.task_prom asked
  refine ⟨?_, ?_, ?_, ?_⟩
  · rw [Dispatcher.tags_push, prom]
    exact held.distinct.append (List.nodup_singleton _) (List.disjoint_singleton.mpr unused)
  · intro i pushed
    rw [Dispatcher.tags_push, prom, List.mem_append, List.mem_singleton] at pushed
    obtain old | same := pushed
    · exact moved.handler i old
    · cases same
      exact ⟨_, Table.get_set_self here, rfl⟩
  · intro i pushed
    rw [Dispatcher.tags_push, prom, List.mem_append, List.mem_singleton] at pushed
    obtain old | same := pushed
    · exact held.job i old
    · contradiction
  · intro other pending
    rw [Dispatcher.unanswered_push, List.mem_append, List.mem_singleton] at pending
    obtain old | rfl := pending
    · exact moved.asked other old
    · exact .inl ⟨h, _, Table.get_set_self here, asked⟩

/-- A worker's step; the submission is its last. -/
theorem work (held : Ticketed disp threads handlers) (found : threads[k]? = some thread)
    (running : thread.job.Unfinished) :
    Ticketed disp (threads.set k { thread with job }) handlers where
  distinct := held.distinct
  handler := held.handler
  job i pushed := by
    obtain ⟨other, there, exited⟩ := held.job i pushed
    by_cases same : i = k
    · subst same
      obtain rfl := Option.some.inj (there.symm.trans found)
      exact absurd exited running
    · exact ⟨other, (Table.get_set_other same).trans there, exited⟩
  asked := held.asked

/-- A worker's submission. -/
theorem finish (held : Ticketed disp threads handlers) (found : threads[k]? = some thread)
    (running : thread.job.Unfinished) (exited : job.pc = .exited) :
    Ticketed (disp.push (.ofFinishJob (.job k))) (threads.set k { thread with job })
      handlers := by
  have moved : Ticketed disp (threads.set k { thread with job }) handlers :=
    held.work found running
  have unused : Submitter.job k ∉ disp.tags := held.unused_of_unfinished found running
  refine ⟨?_, ?_, ?_, ?_⟩
  · rw [Dispatcher.tags_push]
    exact held.distinct.append (List.nodup_singleton _) (List.disjoint_singleton.mpr unused)
  · intro i pushed
    rw [Dispatcher.tags_push, List.mem_append, List.mem_singleton] at pushed
    obtain old | same := pushed
    · exact held.handler i old
    · contradiction
  · intro i pushed
    rw [Dispatcher.tags_push, List.mem_append, List.mem_singleton] at pushed
    obtain old | same := pushed
    · exact moved.job i old
    · cases same
      exact ⟨_, Table.get_set_self found, exited⟩
  · intro other pending
    rw [Dispatcher.unanswered_push, List.mem_append, List.mem_singleton] at pending
    obtain old | rfl := pending
    · exact held.asked other old
    · exact .inr ⟨k, rfl⟩

/-- The dispatcher's worker neither pushes nor renames. -/
theorem dispatch {act : LoopAct} (held : Ticketed disp threads handlers)
    (moved : disp.loopStep act = some after) : Ticketed after threads handlers where
  distinct := by rw [Dispatcher.tags_loopStep moved]; exact held.distinct
  handler := by rw [Dispatcher.tags_loopStep moved]; exact held.handler
  job := by rw [Dispatcher.tags_loopStep moved]; exact held.job
  asked task pending := held.asked task (Dispatcher.unanswered_loopStep moved pending)

/-- A request that has just arrived has submitted nothing. -/
theorem arrive {hd : Handler} (held : Ticketed disp threads handlers) :
    Ticketed disp threads (handlers ++ [hd]) where
  distinct := held.distinct
  handler i pushed := by
    obtain ⟨other, found, past⟩ := held.handler i pushed
    exact ⟨other, Table.get_spawn_old found, past⟩
  job := held.job
  asked task pending := by
    obtain ⟨i, other, found, its⟩ | finish := held.asked task pending
    · exact .inl ⟨i, other, Table.get_spawn_old found, its⟩
    · exact .inr finish

/-- A launched thread has submitted nothing. -/
theorem spawn (held : Ticketed disp threads handlers) :
    Ticketed disp (threads ++ [thread]) handlers where
  distinct := held.distinct
  handler := held.handler
  job i pushed := by
    obtain ⟨other, found, exited⟩ := held.job i pushed
    exact ⟨other, Table.get_spawn_old found, exited⟩
  asked := held.asked

end Ticketed

/-- Every step keeps the promises apart. -/
theorem Ticketed.step (held : Ticketed w.disp w.threads w.handlers)
    (taken : w.step event = some next) : Ticketed next.disp next.threads next.handlers := by
  cases (step_move taken).2 with
  | arrive request => exact held.arrive
  | terminate here same => exact held
  | dispatch moved => exact held.dispatch moved
  | submit here asked => exact held.submit here asked
  | launch here free => exact held.spawn.move here id
  | work found agrees moved => exact held.work found (Job.unfinished_of_step moved)
  | write found moved written => exact held.work found (Job.unfinished_of_step moved)
  | writeFail found moved unwritten => exact held.work found (Job.unfinished_of_step moved)
  | clear found moved => exact held.work found (Job.unfinished_of_step moved)
  | finish found moved =>
    exact held.finish found (Job.unfinished_of_step moved) (Job.of_finish moved).2.2
  | receive here ready => exact held.move here fun _ => Request.fresh_onResponse _ _
  | idle here free | join here same found exited =>
    exact held.move here fun past => Request.fresh_afterStop (by simpa [Handler.fresh] using past)
  | create rd here => exact held.move here (by simp [Handler.fresh])
  | _ here => exact held.move here (by simp [Handler.fresh])

/-- In every reachable state the promises are apart. -/
theorem ticketed (reached : Transition.run World.step {} events = some w) :
    Ticketed w.disp w.threads w.handlers :=
  Transition.run_stable (fun w : World => Ticketed w.disp w.threads w.handlers)
    (fun held taken => held.step taken)
    ⟨by simp [Dispatcher.tags, LoopPc.held], by simp [Dispatcher.tags, LoopPc.held],
      by simp [Dispatcher.tags, LoopPc.held], by simp [Dispatcher.unanswered, LoopPc.held]⟩
    reached

/-! ## Requests and control points -/

end World

/-- Only a start call is inside `JobRunner::start`, and a request that stops first never sets
the baudrate. -/
def Handler.Typed (hd : Handler) : Prop :=
  match hd.pc with
  | .configuring _ => hd.request.stops = false
  | .creating => hd.request.starts = true
  | .arming _ => hd.request.starts = true
  | .launching _ => hd.request.starts = true
  | _ => True

/-- A request that stops first begins with `JobRunner::stop`. -/
theorem Request.entry_of_stops {request : Request} (stops : request.stops = true) :
    request.entry = .cancelling := by
  cases request with
  | stop => rfl
  | command cmd baud =>
    have halt : toUpperAscii cmd = "STOP" := by simpa [Request.stops] using stops
    simp [Request.entry, halt]
  | _ => contradiction

/-- A request enters at one of its own control points. -/
theorem Request.typed_entry (request : Request) :
    (⟨request, request.entry⟩ : Handler).Typed := by
  by_cases stops : request.stops = true
  · simp [Handler.Typed, Request.entry_of_stops stops]
  · cases request with
    | command cmd baud =>
      have other : toUpperAscii cmd ≠ "STOP" := by simpa [Request.stops] using stops
      by_cases init : toUpperAscii cmd = "INIT"
      · cases baud <;> simp [Handler.Typed, Request.entry, Request.stops, init]
      · simp [Handler.Typed, Request.entry, init, other]
    | _ => trivial

/-- A response leads to one of the request's control points. -/
theorem Request.typed_onResponse (request : Request) (r : Response) :
    (⟨request, request.onResponse r⟩ : Handler).Typed := by
  obtain here | ⟨reply, here⟩ := request.onResponse_cases r <;> rw [here] <;> trivial

/-- So does the return of `JobRunner::stop`. -/
theorem Request.typed_afterStop (request : Request) :
    (⟨request, request.afterStop⟩ : Handler).Typed := by
  cases request <;> trivial

namespace World

variable {w next : World} {event : Event} {events : List Event}

/-- Every step keeps every handler at the control points of its request. -/
theorem typed_step (held : Table.All w.handlers fun _ hd => hd.Typed)
    (taken : w.step event = some next) : Table.All next.handlers fun _ hd => hd.Typed := by
  cases (step_move taken).2 with
  | arrive request => exact held.spawn request.typed_entry
  | receive here ready => exact held.set (Request.typed_onResponse _ _)
  | idle here free | join here same found exited => exact held.set (Request.typed_afterStop _)
  | create rd here =>
    have starts := held _ _ here
    exact held.set starts
  | arm here =>
    have starts := held _ _ here
    exact held.set starts
  | terminate here same | work found agrees moved | write found moved written
  | writeFail found moved unwritten | clear found moved | finish found moved
  | dispatch moved => exact held
  | _ here => exact held.set trivial

/-- In every reachable state every handler is at a control point of its request. -/
theorem typed (reached : Transition.run World.step {} events = some w) :
    Table.All w.handlers fun _ hd => hd.Typed :=
  Transition.run_stable (fun w : World => Table.All w.handlers fun _ hd => hd.Typed)
    (fun held taken => typed_step held taken) (by simp) reached

/-! ## All of it -/

/-- What holds of every reachable state and is used along the way. -/
structure Sorted (w : World) : Prop where
  /-- Promises are apart. -/
  ticketed : Ticketed w.disp w.threads w.handlers
  /-- Handlers are at control points of their requests. -/
  typed : Table.All w.handlers fun _ hd => hd.Typed
  /-- The thread object is right. -/
  joinable : Joinable w.handle w.threads

/-- Every step keeps the bookkeeping. -/
theorem Sorted.step (held : w.Sorted) (taken : w.step event = some next) : next.Sorted :=
  ⟨held.ticketed.step taken, typed_step held.typed taken, held.joinable.step taken⟩

/-- Every reachable state has its bookkeeping. -/
theorem sorted (reached : Transition.run World.step {} events = some w) : w.Sorted :=
  ⟨ticketed reached, typed reached, World.joinable reached⟩

end World

end QrEdgeGateway
