import QrEdgeGateway.Verif.Bookkeeping

/-!
# Results are permanent

No setter of the store looks at the record it overwrites, so a terminal record stays what it is
only because nobody addresses it again. A worker addresses its own record, once, while that
record is still pending. A start call addresses the identifier it has drawn, and `create` does
not ask whether there is a record already: a draw that hits an old identifier resets a finished
job to `PENDING`. In runs whose draws miss the store, every terminal record is final.
-/

namespace QrEdgeGateway

/-- The record is there and pending. -/
def JobStore.Pending (store : JobStore) (id : String) : Prop :=
  (store.get id).map JobResult.status = some .pending

/-- A pending record is a record. -/
theorem JobStore.Pending.isSome {store : JobStore} {id : String} (pending : store.Pending id) :
    (store.get id).isSome = true := by
  obtain ⟨res, found, -⟩ := Option.map_eq_some_iff.mp pending
  simp [found]

/-- A created record is pending. -/
theorem JobStore.pending_create_self (store : JobStore) (id : String) :
    (store.create id).Pending id := by
  simp [Pending, JobStore.get_create]

/-- Creation leaves every record elsewhere pending that was. -/
theorem JobStore.Pending.create {store : JobStore} {id other : String}
    (pending : store.Pending other) (differs : other ≠ id) : (store.create id).Pending other := by
  rw [Pending, JobStore.get_create, if_neg differs]
  exact pending

/-- A write leaves every record elsewhere pending that was. -/
theorem JobStore.Pending.write {store after : JobStore} {id other : String} {outcome : Outcome}
    (pending : store.Pending other) (written : store.write id outcome = some after)
    (differs : other ≠ id) : after.Pending other := by
  rw [Pending, JobStore.get_write written, if_neg differs]
  exact pending

namespace World

variable {w next : World} {event : Event} {events : List Event}

/-- This step draws an identifier the store already holds. -/
def redraws (w : World) : Event → Bool
  | .draw _ rd => w.store.contains (genId rd)
  | _ => false

/-- Every record that is still to be written is pending, and addressed by one party only. -/
structure Reserved (store : JobStore) (threads : List Thread) (handlers : List Handler) :
    Prop where
  /-- A start call's record is pending. -/
  starting : Table.All handlers fun _ hd => ∀ id, hd.pc.starting = some id → store.Pending id
  /-- A live worker's record is pending. -/
  live : Table.All threads fun _ thread => thread.job.Live → store.Pending thread.job.id
  /-- Two start calls have different records. -/
  apart : ∀ id, Table.AtMostOne handlers fun hd => hd.pc.starting = some id
  /-- A start call and a live worker have different records. -/
  distinct : Table.All handlers fun _ hd => Table.All threads fun _ thread =>
    thread.job.Live → hd.pc.starting ≠ some thread.job.id

namespace Reserved

variable {store : JobStore} {threads : List Thread} {handlers : List Handler} {h k : Nat}
  {request : Request} {pc pc' : RestPc} {thread : Thread} {job : Job} {id : String}

/-- A handler that takes up no record it did not have. -/
theorem move (held : Reserved store threads handlers)
    (here : handlers[h]? = some ⟨request, pc⟩)
    (keeps : ∀ id, pc'.starting = some id → pc.starting = some id) :
    Reserved store threads (handlers.set h ⟨request, pc'⟩) := by
  refine ⟨held.starting.set fun id starting => held.starting h _ here id (keeps id starting),
    held.live, fun id => (held.apart id).set here (keeps id), held.distinct.set ?_⟩
  intro k thread found live starting
  exact held.distinct h _ here k thread found live (keeps _ starting)

/-- A created record that nobody else addresses is the creator's alone. -/
theorem create (held : Reserved store threads handlers)
    (here : handlers[h]? = some ⟨request, .creating⟩)
    (unstarted : Table.All handlers fun _ hd => hd.pc.starting ≠ some id)
    (unowned : Table.All threads fun _ thread => thread.job.Live → thread.job.id ≠ id) :
    Reserved (store.create id) threads (handlers.set h ⟨request, .arming id⟩) := by
  refine ⟨?_, ?_, ?_, ?_⟩
  · refine Table.All.set (held.starting.mono fun i hd found pending other starting => ?_) ?_
    · refine (pending other starting).create fun same => ?_
      exact unstarted i hd found (same ▸ starting)
    · intro other starting
      obtain rfl := Option.some.inj starting
      exact store.pending_create_self id
  · exact held.live.mono fun k thread found pending live =>
      (pending live).create (unowned k thread found live)
  · intro name
    by_cases same : name = id
    · subst same
      exact .set_first fun ⟨i, hd, found, starting⟩ => unstarted i hd found starting
    · exact (held.apart name).set here fun starting =>
        absurd (Option.some.inj starting).symm same
  · intro i hd found k thread there live starting
    obtain ⟨rfl, rfl⟩ | ⟨-, old⟩ := Table.get_set found
    · exact unowned k thread there live (Option.some.inj starting).symm
    · exact held.distinct i hd old k thread there live starting

/-- A new record is addressed by nobody. -/
theorem unaddressed (held : Reserved store threads handlers) (fresh : store.get id = none) :
    (Table.All handlers fun _ hd => hd.pc.starting ≠ some id) ∧
      Table.All threads fun _ thread => thread.job.Live → thread.job.id ≠ id := by
  have missing : ¬ store.Pending id := by simp [JobStore.Pending, fresh]
  constructor
  · exact held.starting.mono fun _ _ _ pending starting => missing (pending id starting)
  · exact held.live.mono fun _ _ _ pending live same => missing (same ▸ pending live)

/-- A launched thread takes over the record of its start call. -/
theorem launch {timeoutMs : Int} (held : Reserved store threads handlers)
    (here : handlers[h]? = some ⟨request, .launching id⟩) :
    Reserved store (threads ++ [⟨h, { id, timeoutMs }⟩])
      (handlers.set h ⟨request, .replying id⟩) := by
  have moved : Reserved store threads (handlers.set h ⟨request, .replying id⟩) :=
    held.move here fun other starting => by simp [RestPc.starting] at starting
  refine ⟨moved.starting, held.live.spawn fun _ => held.starting h _ here id rfl, moved.apart, ?_⟩
  intro i hd found
  refine (moved.distinct i hd found).spawn fun _ starting => ?_
  obtain ⟨rfl, rfl⟩ | ⟨other, old⟩ := Table.get_set found
  · simp [RestPc.starting] at starting
  · exact other (held.apart id i h hd _ old here starting rfl)

/-- A worker's step that does not write. -/
theorem work (held : Reserved store threads handlers) (found : threads[k]? = some thread)
    (same : job.id = thread.job.id) (live : job.Live → thread.job.Live) :
    Reserved store (threads.set k { thread with job }) handlers where
  starting := held.starting
  live := held.live.set fun still => by
    rw [same]
    exact held.live k thread found (live still)
  apart := held.apart
  distinct i hd there := (held.distinct i hd there).set fun still => by
    rw [same]
    exact held.distinct i hd there k thread found (live still)

/-- A worker's write ends its own reservation and touches no other. -/
theorem write {handle : Option Nat} {outcome : Outcome} {after : JobStore}
    (held : Reserved store threads handlers) (joinable : Joinable handle threads)
    (found : threads[k]? = some thread) (live : thread.job.Live)
    (same : job.id = thread.job.id) (written : store.write job.id outcome = some after)
    (ended : ¬ job.Live) : Reserved after (threads.set k { thread with job }) handlers where
  starting := held.starting.mono fun i hd there pending id starting =>
    (pending id starting).write written fun equal => by
      refine held.distinct i hd there k thread found live ?_
      rw [starting, equal, same]
  live := by
    intro j other there still
    obtain ⟨rfl, rfl⟩ | ⟨differs, old⟩ := Table.get_set there
    · exact absurd still ended
    · have mine := joinable.sole k thread found live.unfinished
      have its := joinable.sole j other old still.unfinished
      exact absurd (Option.some.inj (its.symm.trans mine)) differs
  apart := held.apart
  distinct i hd there := (held.distinct i hd there).set fun still => absurd still ended

end Reserved

/-- A request that has just arrived starts no record. -/
theorem starting_entry (request : Request) : request.entry.starting = none := by
  obtain here | here | ⟨_, here⟩ | ⟨_, here⟩ | here := request.entry_cases <;> rw [here] <;> rfl

/-- A new request has no record. -/
theorem Reserved.arrive {store : JobStore} {threads : List Thread} {handlers : List Handler}
    {request : Request} (held : Reserved store threads handlers) :
    Reserved store threads (handlers ++ [⟨request, request.entry⟩]) := by
  have outside : ∀ id, request.entry.starting ≠ some id := by simp [starting_entry]
  exact ⟨held.starting.spawn fun id starting => absurd starting (outside id), held.live,
    fun id => (held.apart id).spawn fun starting => absurd starting (outside id),
    held.distinct.spawn fun k thread _ _ => outside _⟩

/-- A response starts no record. -/
theorem starting_onResponse (request : Request) (r : Response) :
    (request.onResponse r).starting = none := by
  obtain here | ⟨reply, here⟩ := request.onResponse_cases r <;> rw [here] <;> rfl

/-- Steps whose draw is new keep every pending record reserved. -/
theorem Reserved.step (held : Reserved w.store w.threads w.handlers)
    (joinable : Joinable w.handle w.threads) (fresh : w.redraws event = false)
    (taken : w.step event = some next) : Reserved next.store next.threads next.handlers := by
  cases (step_move taken).2 with
  | arrive request => exact held.arrive
  | terminate here same | dispatch moved => exact held
  | create rd here =>
    have absent : w.store.get (genId rd) = none := by
      simpa [redraws, JobStore.contains, JobStore.get] using fresh
    obtain ⟨unstarted, unowned⟩ := held.unaddressed absent
    exact held.create here unstarted unowned
  | arm here => exact held.move here fun id starting => starting
  | launch here free => exact held.launch here
  | work found agrees moved =>
    obtain ⟨same, live, -⟩ := Job.of_silent moved
    exact held.work found same fun _ => live
  | write found moved written =>
    obtain ⟨same, storing, cleared⟩ := Job.of_write moved
    exact held.write joinable found (by simp [Job.Live, storing, JobPc.written]) same written
      (by simp [Job.Live, cleared, JobPc.written])
  | writeFail found moved unwritten =>
    obtain ⟨same, -, cleared⟩ := Job.of_write moved
    exact held.work found same fun live => by simp [Job.Live, cleared, JobPc.written] at live
  | clear found moved =>
    obtain ⟨same, -, finishing⟩ := Job.of_clear moved
    exact held.work found same fun live => by simp [Job.Live, finishing, JobPc.written] at live
  | finish found moved =>
    obtain ⟨same, -, exited⟩ := Job.of_finish moved
    exact held.work found same fun live => by simp [Job.Live, exited, JobPc.written] at live
  | receive here ready =>
    exact held.move here fun id starting => by simp [starting_onResponse] at starting
  | idle here free | join here same found exited =>
    exact held.move here fun id starting => by simp at starting
  | _ here => exact held.move here fun id starting => by simp [RestPc.starting] at starting

/-- One step whose draw is new leaves every terminal record as it is. -/
theorem terminal_step (held : Reserved w.store w.threads w.handlers)
    (fresh : w.redraws event = false) (taken : w.step event = some next) {id : String}
    {res : JobResult} (stored : w.store.get id = some res) (terminal : res.status.Terminal) :
    next.store.get id = some res := by
  cases (step_move taken).2 with
  | create rd here =>
    have absent : w.store.get (genId rd) = none := by
      simpa [redraws, JobStore.contains, JobStore.get] using fresh
    refine (JobStore.get_create _ _ _).trans ?_
    rw [if_neg]
    · exact stored
    · rintro rfl
      simp [stored] at absent
  | @write k thread job obs outcome store found moved written =>
    obtain ⟨same, storing, -⟩ := Job.of_write moved
    have pending : w.store.Pending thread.job.id :=
      held.live _ _ found (by simp [Job.Live, storing, JobPc.written])
    refine (JobStore.get_write written id).trans ?_
    rw [if_neg]
    · exact stored
    · intro equal
      rw [← same, ← equal, JobStore.Pending, stored] at pending
      exact terminal (Option.some.inj pending)
  | _ => exact stored

/-- A finished job's result is permanent. In every run whose draws of `gen_id` miss the
identifiers already in the store, a record that is terminal at one point is the same record at
every later point. -/
theorem result_is_permanent (first second : List Event) (w₁ w₂ : World)
    (reached : Transition.run World.step {} first = some w₁)
    (onward : Transition.run World.step w₁ second = some w₂)
    (fresh : Transition.Along World.step (fun w event => w.redraws event = false) {}
      (first ++ second))
    (id : String) (res : JobResult) (stored : w₁.store.get id = some res)
    (terminal : res.status.Terminal) : w₂.store.get id = some res := by
  obtain ⟨before, after⟩ := (Transition.along_append reached).mp fresh
  have keeps : ∀ {w next : World} {event : Event},
      Joinable w.handle w.threads ∧ Reserved w.store w.threads w.handlers →
      w.redraws event = false → w.step event = some next →
      Joinable next.handle next.threads ∧ Reserved next.store next.threads next.handlers :=
    fun ⟨joinable, held⟩ fresh taken => ⟨joinable.step taken, held.step joinable fresh taken⟩
  have held₁ : Joinable w₁.handle w₁.threads ∧ Reserved w₁.store w₁.threads w₁.handlers :=
    Transition.run_invariant (fun w : World =>
      Joinable w.handle w.threads ∧ Reserved w.store w.threads w.handlers) keeps
      ⟨⟨by simp, by simp⟩, ⟨by simp, by simp, fun id i j a b found => by simp at found, by simp⟩⟩
      reached before
  have held₂ := Transition.run_invariant
    (fun w : World => (Joinable w.handle w.threads ∧
      Reserved w.store w.threads w.handlers) ∧ w.store.get id = some res)
    (fun ⟨held, stored⟩ fresh taken =>
      ⟨keeps held fresh taken, terminal_step held.2 fresh taken stored terminal⟩)
    ⟨held₁, stored⟩ onward after
  exact held₂.2

/-- A job that times out, up to the answer to its `FINISH_JOB`. -/
def timedOutRun : List Event :=
  initCall 0 ++ (startCall 1 1 fun _ => 0) ++
    [.job 0 (.clock 0), .job 0 (.running true), .job 0 (.clock 1000000), .job 0 .tau,
      .job 0 .tau, .job 0 .tau] ++ serve

/-- A second start call, up to the creation of its record. -/
def secondStart (rd : Fin 8 → UInt32) : List Event :=
  [.request (.start 1), .handler 2] ++ serve ++
    [.handler 2, .handler 2, .handler 2, .handler 2, .draw 2 rd]

/-- With a new identifier for the second job the first one keeps its result. -/
theorem timedOutRun_permanent : ∃ w₁ w₂, Transition.run World.step {} timedOutRun = some w₁ ∧
    Transition.run World.step w₁ (secondStart fun _ => 1) = some w₂ ∧
    w₂.store.get "00000000" = some ⟨.timeout, "TIMEOUT", none⟩ :=
  ⟨_, _, rfl, rfl, result_is_permanent timedOutRun (secondStart fun _ => 1) _ _ rfl rfl
    (by decide) "00000000" ⟨.timeout, "TIMEOUT", none⟩ (by decide) (by decide)⟩

/-- A second job that draws the identifier of the first resets its result to `PENDING`. -/
theorem timedOutRun_overwritten : ∃ w₁ w₂, Transition.run World.step {} timedOutRun = some w₁ ∧
    w₁.store.get "00000000" = some ⟨.timeout, "TIMEOUT", none⟩ ∧
    Transition.run World.step w₁ (secondStart fun _ => 0) = some w₂ ∧
    w₂.store.get "00000000" = some ⟨.pending, "PENDING", none⟩ :=
  ⟨_, _, rfl, by decide, rfl, by decide⟩

end World

end QrEdgeGateway
