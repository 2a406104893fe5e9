import QrEdgeGateway.Verif.Bookkeeping

/-!
# The store as `/result` sees it

Every operation of the store writes all fields of a record, so a record has one of four shapes
whatever the schedule. That at most one record is pending rests on `JobRunner::start` joining
the previous worker before it creates a record, which one call does for itself: it holds when
the calls of `JobRunner` do not overlap. The record is created before its thread is started, so
between the two it belongs to the start call and not yet to a worker.
-/

namespace QrEdgeGateway

/-- The four shapes of a record. -/
def JobResult.Shaped (res : JobResult) : Prop :=
  res = ⟨.pending, "PENDING", none⟩ ∨
  (∃ qr, startsWithQr qr = true ∧ res = ⟨.done, "OK", some qr⟩) ∨
  res = ⟨.timeout, "TIMEOUT", none⟩ ∨
  res = ⟨.cancelled, "CANCELLED", none⟩

/-- An outcome with a QR text, if with any, leaves a shaped record. -/
theorem Outcome.record_shaped {outcome : Outcome}
    (sound : ∀ qr, outcome = .done qr → startsWithQr qr = true) : outcome.record.Shaped := by
  cases outcome with
  | done qr => exact .inr (.inl ⟨qr, sound qr rfl, rfl⟩)
  | timeout => exact .inr (.inr (.inl rfl))
  | cancelled => exact .inr (.inr (.inr rfl))

/-- A shaped record that is done holds a QR text. -/
theorem JobResult.Shaped.qr_of_done {res : JobResult} (shaped : res.Shaped)
    (done : res.status = .done) : ∃ qr, res.qr = some qr := by
  obtain rfl | ⟨qr, -, rfl⟩ | rfl | rfl := shaped
  · contradiction
  · exact ⟨qr, rfl⟩
  · contradiction
  · contradiction

/-- The handler has begun a `JobRunner` call and not returned from it. -/
def RestPc.calling : RestPc → Bool
  | .checking => true
  | .joining => true
  | .creating => true
  | .arming _ => true
  | .launching _ => true
  | _ => false

/-- The handler is in `JobRunner::start` behind its `stop()`. -/
def RestPc.building : RestPc → Bool
  | .creating => true
  | .arming _ => true
  | .launching _ => true
  | _ => false

/-- Whoever is building is calling. -/
theorem RestPc.calling_of_building {pc : RestPc} (building : pc.building = true) :
    pc.calling = true := by
  cases pc <;> first | rfl | contradiction

/-- Whoever has created a record is building. -/
theorem RestPc.building_of_starting {pc : RestPc} {id : String}
    (starting : pc.starting = some id) : pc.building = true := by
  cases pc <;> first | rfl | contradiction

namespace World

variable {w next : World} {event : Event} {events : List Event}

/-! ## Shapes -/

/-- Records are shaped and no worker is about to store anything else. -/
structure Shapely (store : JobStore) (threads : List Thread) : Prop where
  /-- Every record has one of the four shapes. -/
  record : ∀ id res, store.get id = some res → res.Shaped
  /-- Every worker about to store `DONE` holds a QR text. -/
  sound : Table.All threads fun _ thread => thread.job.Sound

/-- Every step keeps the records shaped. -/
theorem Shapely.step (held : Shapely w.store w.threads) (taken : w.step event = some next) :
    Shapely next.store next.threads := by
  cases (step_move taken).2 with
  | create rd here =>
    refine ⟨fun id res found => ?_, held.sound⟩
    have found := (JobStore.get_create _ _ _).symm.trans found
    split at found
    · obtain rfl := Option.some.inj found
      exact .inl rfl
    · exact held.record id res found
  | launch here free => exact ⟨held.record, held.sound.spawn fun qr storing => by simp at storing⟩
  | work found agrees moved => exact ⟨held.record, held.sound.set (Job.of_silent moved).2.2.2⟩
  | @write k thread job obs outcome store found moved written =>
    obtain ⟨same, storing, cleared⟩ := Job.of_write moved
    refine ⟨fun id res there => ?_, held.sound.set fun qr impossible => ?_⟩
    rotate_left
    · simp [cleared] at impossible
    have there := (JobStore.get_write written id).symm.trans there
    split at there
    · obtain rfl := Option.some.inj there
      refine Outcome.record_shaped fun qr its => held.sound k thread found qr ?_
      rw [storing, its]
    · exact held.record id res there
  | writeFail found moved unwritten =>
    exact ⟨held.record, held.sound.set fun qr impossible => by
      simp [(Job.of_write moved).2.2] at impossible⟩
  | clear found moved =>
    exact ⟨held.record, held.sound.set fun qr impossible => by
      simp [(Job.of_clear moved).2.2] at impossible⟩
  | finish found moved =>
    exact ⟨held.record, held.sound.set fun qr impossible => by
      simp [(Job.of_finish moved).2.2] at impossible⟩
  | _ => exact held

/-- In every reachable state the records are shaped. -/
theorem shapely (reached : Transition.run World.step {} events = some w) :
    Shapely w.store w.threads :=
  Transition.run_stable (fun w : World => Shapely w.store w.threads)
    (fun held taken => held.step taken)
    ⟨fun id res found => by simp [JobStore.get] at found, by simp⟩ reached

/-! ## One call at a time -/

/-- This step begins a `JobRunner` call while another one is under way. -/
def overlapsCall (w : World) : Event → Bool
  | .handler h =>
    match w.handlers[h]? with
    | some hd => hd.pc = .cancelling ∧ Table.Any w.handlers fun _ other => other.pc.calling = true
    | none => false
  | _ => false

/-- One `JobRunner` call is under way at most, and the thread object is as it left it. -/
structure Alone (handle : Option Nat) (handlers : List Handler) : Prop where
  /-- Two handlers inside a call are one. -/
  one : Table.AtMostOne handlers fun hd => hd.pc.calling = true
  /-- Behind its `stop()` a start call finds the thread object free. -/
  free : Table.All handlers fun _ hd => hd.pc.building = true → handle = none

namespace Alone

variable {handle handle' : Option Nat} {handlers : List Handler} {h : Nat} {request : Request}
  {pc pc' : RestPc}

/-- A handler's step that begins no call and leaves the thread object. -/
theorem move (held : Alone handle handlers) (here : handlers[h]? = some ⟨request, pc⟩)
    (calls : pc'.calling = true → pc.calling = true)
    (builds : pc'.building = true → handle = none) :
    Alone handle (handlers.set h ⟨request, pc'⟩) :=
  ⟨held.one.set here calls, held.free.set builds⟩

/-- The handler inside a call may change the thread object: nobody else is building. -/
theorem change (held : Alone handle handlers) (here : handlers[h]? = some ⟨request, pc⟩)
    (calling : pc.calling = true) (builds : pc'.building = true → handle' = none) :
    Alone handle' (handlers.set h ⟨request, pc'⟩) := by
  refine ⟨held.one.set here fun _ => calling, fun i hd found building => ?_⟩
  obtain ⟨rfl, rfl⟩ | ⟨other, old⟩ := Table.get_set found
  · exact builds building
  · have both := held.one i h hd _ old here (RestPc.calling_of_building building) calling
    exact absurd both other

end Alone

/-- A request that has just arrived is in no call. -/
theorem calling_entry (request : Request) : request.entry.calling = false := by
  obtain here | here | ⟨_, here⟩ | ⟨_, here⟩ | here := request.entry_cases <;> rw [here] <;> rfl

/-- A response leads into no call. -/
theorem calling_onResponse (request : Request) (r : Response) :
    (request.onResponse r).calling = false := by
  obtain here | ⟨reply, here⟩ := request.onResponse_cases r <;> rw [here] <;> rfl

/-- Calls that begin one after the other stay alone. -/
theorem Alone.step (held : Alone w.handle w.handlers) (serial : w.overlapsCall event = false)
    (taken : w.step event = some next) : Alone next.handle next.handlers := by
  cases (step_move taken).2 with
  | arrive request =>
    refine ⟨held.one.spawn fun calling => ?_, held.free.spawn fun building => ?_⟩
    · simp [calling_entry] at calling
    · have calling := RestPc.calling_of_building building
      simp [calling_entry] at calling
  | @cancel h request here =>
    refine ⟨.set_first fun busy => ?_, held.free.set fun building => ?_⟩
    · have overlapping : w.overlapsCall (.handler h) = true := by
        simp only [overlapsCall, here]
        exact decide_eq_true ⟨trivial, busy⟩
      rw [serial] at overlapping
      contradiction
    · simp [RestPc.building] at building
  | receive here ready =>
    refine held.move here (fun calling => ?_) fun building => ?_
    · simp [calling_onResponse] at calling
    · have calling := RestPc.calling_of_building building
      simp [calling_onResponse] at calling
  | idle here free => exact held.move here (fun _ => rfl) fun _ => free
  | join here same found exited => exact held.change here rfl fun _ => rfl
  | create rd here =>
    have free := held.free _ _ here rfl
    exact held.move here (fun _ => rfl) fun _ => free
  | arm here =>
    have free := held.free _ _ here rfl
    exact held.move here (fun _ => rfl) fun _ => free
  | launch here free =>
    exact held.change here rfl fun building => by simp [RestPc.building] at building
  | wait here same =>
    exact held.move here (fun _ => rfl) fun building => by simp [RestPc.building] at building
  | terminate here same | work found agrees moved | write found moved written
  | writeFail found moved unwritten | clear found moved | finish found moved
  | dispatch moved => exact held
  | _ here => exact held.move here (by simp [RestPc.calling]) (by simp [RestPc.building])

/-- The store is consistent. In every run in which no `JobRunner` call begins while another is
under way: every record has one of the four shapes; at most one is pending; a pending one
belongs to the most recently started worker, which has not stored its status, or to the start
call that has created it and not yet launched its worker; no setter called by a worker and no
`get` of `/result` behind its `exists` misses its record. -/
theorem store_is_consistent (events : List Event) (w : World)
    (reached : Transition.run World.step {} events = some w)
    (serial : Transition.Along World.step (fun w event => w.overlapsCall event = false) {}
      events) :
    (∀ id res, w.store.get id = some res → res.Shaped) ∧
    (∀ id id' res res', w.store.get id = some res → res.status = .pending →
      w.store.get id' = some res' → res'.status = .pending → id = id') ∧
    (∀ id res, w.store.get id = some res → res.status = .pending →
      Table.Any w.threads (fun k thread =>
        k + 1 = w.threads.length ∧ thread.job.id = id ∧ thread.job.Live) ∨
      Table.Any w.handlers (fun _ hd => hd.pc.starting = some id)) ∧
    (Table.All w.threads fun _ thread => ∀ outcome, thread.job.pc = .storing outcome →
      (w.store.write thread.job.id outcome).isSome = true) ∧
    (Table.All w.handlers fun _ hd => ∀ id, hd.pc = .fetching id →
      (w.store.get id).isSome = true) := by
  have alone : Alone w.handle w.handlers :=
    Transition.run_invariant (fun w : World => Alone w.handle w.handlers)
      (fun held serial taken => held.step serial taken)
      ⟨fun i j a b found => by simp at found, by simp⟩ reached serial
  have recorded := recorded reached
  have joinable := World.joinable reached
  -- while a start call is building, every thread has exited, so no worker is live
  have exclusive : ∀ {i k : Nat} {hd : Handler} {thread : Thread} {id : String},
      w.handlers[i]? = some hd → hd.pc.starting = some id → w.threads[k]? = some thread →
      ¬ thread.job.Live := by
    intro i k hd thread id found starting there live
    have free := alone.free i hd found (RestPc.building_of_starting starting)
    exact live.unfinished (joinable.exited_of_none free k thread there)
  refine ⟨(shapely reached).record, ?_, ?_, ?_, ?_⟩
  · intro id id' res res' found pending found' pending'
    obtain ⟨i, hd, here, starting⟩ | ⟨k, thread, here, live, its⟩ :=
      recorded.owned id res found pending
    · obtain ⟨j, hd', there, starting'⟩ | ⟨k', thread', there, live', -⟩ :=
        recorded.owned id' res' found' pending'
      · obtain rfl := alone.one i j hd hd' here there
          (RestPc.calling_of_building (RestPc.building_of_starting starting))
          (RestPc.calling_of_building (RestPc.building_of_starting starting'))
        obtain rfl := Option.some.inj (here.symm.trans there)
        exact Option.some.inj (starting.symm.trans starting')
      · exact absurd live' (exclusive here starting there)
    · obtain ⟨j, hd', there, starting'⟩ | ⟨k', thread', there, live', its'⟩ :=
        recorded.owned id' res' found' pending'
      · exact absurd live (exclusive there starting' here)
      · have mine := joinable.sole k thread here live.unfinished
        have other := joinable.sole k' thread' there live'.unfinished
        obtain rfl : k = k' := Option.some.inj (mine.symm.trans other)
        obtain rfl := Option.some.inj (here.symm.trans there)
        exact its.symm.trans its'
  · intro id res found pending
    obtain starting | ⟨k, thread, here, live, its⟩ := recorded.owned id res found pending
    · exact .inr starting
    · have mine := joinable.sole k thread here live.unfinished
      exact .inl ⟨k, thread, here, joinable.newest k mine, its, live⟩
  · intro k thread here outcome storing
    rw [JobStore.write_isSome]
    exact recorded.worker k thread here
  · intro i hd here id fetching
    exact recorded.handler i hd here id (by rw [fetching]; rfl)

/-- A start call served alone up to the creation of its record. -/
def createdRun : List Event :=
  initCall 0 ++ [.request (.start 5000), .handler 1] ++ serve ++
    [.handler 1, .handler 1, .handler 1, .draw 1 fun _ => 0]

/-- The record just created is shaped and belongs to the start call. -/
theorem createdRun_consistent : ∃ w, Transition.run World.step {} createdRun = some w ∧
    Table.Any w.handlers fun _ hd => hd.pc.starting = some "00000000" :=
  ⟨_, rfl, ((store_is_consistent createdRun _ rfl (by decide)).2.2.1 "00000000" {} (by decide)
    rfl).resolve_left (by decide)⟩

/-- A pending record can exist before any worker was started. -/
theorem createdRun_without_worker : ∃ w, Transition.run World.step {} createdRun = some w ∧
    Transition.Along World.step (fun w event => w.overlapsCall event = false) {} createdRun ∧
    w.store.get "00000000" = some ⟨.pending, "PENDING", none⟩ ∧
    ¬ Table.Any w.threads fun k thread =>
      k + 1 = w.threads.length ∧ thread.job.id = "00000000" ∧ thread.job.Live :=
  ⟨_, rfl, by decide, by decide, by decide⟩

end World

end QrEdgeGateway
