import QrEdgeGateway.Verif.Bookkeeping

/-!
# The thread object under concurrent calls

`JobRunner::stop` asks whether `worker_` is joinable and then joins it; `JobRunner::start` calls
it and then assigns `worker_`. No lock spans these steps, and handlers run concurrently, so two
calls can both find the thread joinable, or both find it joined and assign. While calls of
`JobRunner` do not overlap, a call has the thread object to itself from its first step on.
-/

namespace QrEdgeGateway

/-- The handler is inside `JobRunner::stop` or `JobRunner::start`, past the first step. -/
def RestPc.inRunner : RestPc → Bool
  | .checking => true
  | .joining => true
  | .creating => true
  | .arming _ => true
  | .launching _ => true
  | _ => false

/-- The handler is inside `JobRunner::start`, past its call of `JobRunner::stop`. -/
def RestPc.assigning : RestPc → Bool
  | .creating => true
  | .arming _ => true
  | .launching _ => true
  | _ => false

/-- A call that assigns is in the runner. -/
theorem RestPc.inRunner_of_assigning {pc : RestPc} (assigning : pc.assigning = true) :
    pc.inRunner = true := by
  cases pc <;> first | rfl | contradiction

namespace World

/-- A call of `JobRunner` begins while another is under way. -/
def intrudes (w : World) : Event → Bool
  | .handler h =>
    match w.handlers[h]? with
    | some ⟨_, .cancelling⟩ => decide (Table.Any w.handlers fun _ hd => hd.pc.inRunner = true)
    | _ => false
  | _ => false

/-- A caller finds `worker_` joinable while it represents the thread `k`, and goes on to join it. -/
def joinsThread (k : Nat) (w : World) : Event → Bool
  | .handler h =>
    match w.handlers[h]? with
    | some ⟨_, .checking⟩ => w.handle = some k
    | _ => false
  | _ => false

/-- `join` is called on a thread object that is not joinable, or one that is joinable is
assigned. -/
def misuses (w : World) : Event → Bool
  | .handler h =>
    match w.handlers[h]? with
    | some ⟨_, .joining⟩ => w.handle.isNone
    | some ⟨_, .launching _⟩ => w.handle.isSome
    | _ => false
  | _ => false

/-- One call has the thread object to itself. -/
structure Exclusive (handle : Option Nat) (handlers : List Handler) : Prop where
  /-- One call is in the runner. -/
  sole : Table.AtMostOne handlers fun hd => hd.pc.inRunner = true
  /-- A caller at its join has a thread to join. -/
  joins : Table.All handlers fun _ hd => hd.pc = .joining → handle ≠ none
  /-- A caller that is to assign has none. -/
  frees : Table.All handlers fun _ hd => hd.pc.assigning = true → handle = none

namespace Exclusive

variable {handle : Option Nat} {handlers : List Handler} {h : Nat} {request : Request}
  {pc pc' : RestPc}

/-- A handler's step that leaves the thread object alone. -/
theorem move (held : Exclusive handle handlers) (here : handlers[h]? = some ⟨request, pc⟩)
    (back : pc'.inRunner = true → pc.inRunner = true)
    (joins : pc' = .joining → handle ≠ none) (frees : pc'.assigning = true → handle = none) :
    Exclusive handle (handlers.set h ⟨request, pc'⟩) :=
  ⟨held.sole.set here back, held.joins.set joins, held.frees.set frees⟩

/-- A new handler outside the runner. -/
theorem arrive (held : Exclusive handle handlers) (out : pc.inRunner = false) :
    Exclusive handle (handlers ++ [⟨request, pc⟩]) := by
  refine ⟨held.sole.spawn fun inside => ?_, held.joins.spawn fun joining => ?_,
    held.frees.spawn fun assigning => ?_⟩
  · rw [out] at inside
    contradiction
  · rw [show pc = _ from joining] at out
    contradiction
  · rw [RestPc.inRunner_of_assigning assigning] at out
    contradiction

/-- A handler's step outside the runner. -/
theorem outside (held : Exclusive handle handlers) (here : handlers[h]? = some ⟨request, pc⟩)
    (out : pc'.inRunner = false) : Exclusive handle (handlers.set h ⟨request, pc'⟩) := by
  refine held.move here (fun inside => ?_) (fun joining => ?_) fun assigning => ?_
  · rw [out] at inside
    contradiction
  · rw [joining] at out
    contradiction
  · rw [RestPc.inRunner_of_assigning assigning] at out
    contradiction

/-- The sole caller in the runner takes or gives the thread object and leaves. -/
theorem swap {other : Option Nat} (held : Exclusive handle handlers)
    (here : handlers[h]? = some ⟨request, pc⟩) (inside : pc.inRunner = true)
    (notJoining : pc' ≠ .joining) (frees : pc'.assigning = true → other = none) :
    Exclusive other (handlers.set h ⟨request, pc'⟩) := by
  -- every other caller is outside
  have alone : ∀ i hd, i ≠ h → handlers[i]? = some hd → hd.pc.inRunner = false := by
    intro i hd differs found
    by_contra within
    exact differs (held.sole i h hd _ found here (by simpa using within) inside)
  refine ⟨held.sole.set here fun _ => inside, ?_, ?_⟩
  · intro i hd found joining
    obtain ⟨-, rfl⟩ | ⟨differs, old⟩ := Table.get_set found
    · exact absurd joining notJoining
    · have out := alone i hd differs old
      rw [joining] at out
      contradiction
  · intro i hd found assigning
    obtain ⟨-, rfl⟩ | ⟨differs, old⟩ := Table.get_set found
    · exact frees assigning
    · have out := alone i hd differs old
      rw [RestPc.inRunner_of_assigning assigning] at out
      contradiction

end Exclusive

/-- Where a request enters it is outside the runner. -/
theorem inRunner_entry (request : Request) : request.entry.inRunner = false := by
  obtain here | here | ⟨_, here⟩ | ⟨_, here⟩ | here := request.entry_cases <;> rw [here] <;> rfl

/-- So is where a response leads. -/
theorem inRunner_onResponse (request : Request) (r : Response) :
    (request.onResponse r).inRunner = false := by
  obtain here | ⟨reply, here⟩ := request.onResponse_cases r <;> rw [here] <;> rfl

variable {w next : World} {event : Event} {events : List Event}

/-- Calls that do not overlap keep the thread object to themselves. -/
theorem Exclusive.step (held : Exclusive w.handle w.handlers) (apart : w.intrudes event = false)
    (taken : w.step event = some next) : Exclusive next.handle next.handlers := by
  cases (step_move taken).2 with
  | arrive request => exact held.arrive (inRunner_entry request)
  | cancel here =>
    have free : ¬ Table.Any w.handlers fun _ hd => hd.pc.inRunner = true := by
      simpa [intrudes, here] using apart
    exact ⟨.set_first free, held.joins.set (by simp), held.frees.set (by simp [RestPc.assigning])⟩
  | receive here ready => exact held.outside here (inRunner_onResponse _ _)
  | idle here free =>
    refine held.move here (fun _ => rfl) (fun joining => ?_) fun _ => free
    rename_i request
    cases request <;> contradiction
  | wait here same =>
    exact held.move here (fun _ => rfl) (by simp [same]) (by simp [RestPc.assigning])
  | joinFail here free => exact absurd free (held.joins _ _ here rfl)
  | @join h k request thread here same found exited =>
    refine held.swap here rfl ?_ fun _ => rfl
    cases request <;> simp [Request.afterStop]
  | create rd here =>
    exact held.move here (fun _ => rfl) (by simp) fun _ => held.frees _ _ here rfl
  | arm here =>
    exact held.move here (fun _ => rfl) (by simp) fun _ => held.frees _ _ here rfl
  | launch here free => exact held.swap here rfl (by simp) (by simp [RestPc.assigning])
  | terminate here same | work found agrees moved | write found moved written
  | writeFail found moved unwritten | clear found moved | finish found moved
  | dispatch moved => exact held
  | _ here => exact held.outside here rfl

/-- How many callers have gone on to join the thread `k`: at most one, and it is still at its
join if the thread object represents the thread. -/
def Joiners (k : Nat) (handle : Option Nat) (threads : List Thread) (handlers : List Handler)
    (count : Nat) : Prop :=
  count = 0 ∨ count = 1 ∧ k < threads.length ∧
    (handle = some k → Table.Any handlers fun _ hd => hd.pc = .joining)

namespace Joiners

variable {k h count : Nat} {handle : Option Nat} {threads : List Thread}
  {handlers : List Handler} {request : Request} {pc pc' : RestPc}

/-- A handler's step from elsewhere. -/
theorem move (held : Joiners k handle threads handlers count)
    (here : handlers[h]? = some ⟨request, pc⟩) (elsewhere : pc ≠ .joining) :
    Joiners k handle threads (handlers.set h ⟨request, pc'⟩) count := by
  refine held.imp_right fun ⟨one, old, waits⟩ => ⟨one, old, fun same => ?_⟩
  exact Table.Any.set (waits same) here fun joining => absurd joining elsewhere

/-- Another table of as many workers. -/
theorem work {more : List Thread} (held : Joiners k handle threads handlers count)
    (same : more.length = threads.length) : Joiners k handle more handlers count := by
  unfold Joiners
  rw [same]
  exact held

/-- A caller goes on to join the thread the object represents. -/
theorem wait (held : Joiners k handle threads handlers count)
    (exclusive : Exclusive handle handlers) (joinable : Joinable handle threads)
    (here : handlers[h]? = some ⟨request, .checking⟩) (same : handle = some k) :
    Joiners k handle threads (handlers.set h ⟨request, .joining⟩) (count + 1) := by
  obtain rfl | ⟨-, -, waits⟩ := held
  · refine .inr ⟨rfl, ?_, fun _ => ⟨h, _, Table.get_set_self here, rfl⟩⟩
    have newest := joinable.newest k same
    omega
  · -- another caller would be in the runner
    obtain ⟨i, hd, found, joining⟩ := waits same
    obtain rfl := exclusive.sole i h hd _ found here (by simp [joining, RestPc.inRunner]) rfl
    obtain rfl := Option.some.inj (found.symm.trans here)
    contradiction

/-- The thread object represents a new thread, or none. -/
theorem swap {other : Option Nat} {more : List Thread} {moved : List Handler}
    (held : Joiners k handle threads handlers count) (grown : threads.length ≤ more.length)
    (fresh : ∀ i, other = some i → threads.length ≤ i) : Joiners k other more moved count := by
  refine held.imp_right fun ⟨one, old, _⟩ => ⟨one, by omega, fun same => ?_⟩
  have new := fresh k same
  omega

end Joiners

/-- Only at `joinable()` does a caller go on to join. -/
theorem not_joinsThread {k h : Nat} {request : Request} {pc : RestPc}
    (here : w.handlers[h]? = some ⟨request, pc⟩) (elsewhere : pc ≠ .checking) :
    w.joinsThread k (.handler h) = false := by
  cases pc <;> simp [joinsThread, here] at elsewhere ⊢

/-- Every step of calls that do not overlap keeps the count. -/
theorem Joiners.step {k count : Nat} (held : Joiners k w.handle w.threads w.handlers count)
    (exclusive : Exclusive w.handle w.handlers) (joinable : Joinable w.handle w.threads)
    (taken : w.step event = some next) :
    Joiners k next.handle next.threads next.handlers
      (count + (w.joinsThread k event).toNat) := by
  cases (step_move taken).2 with
  | @wait h j request here same =>
    by_cases own : j = k
    · subst own
      rw [show w.joinsThread j (.handler h) = true by simp [joinsThread, here, same]]
      exact held.wait exclusive joinable here same
    · rw [show w.joinsThread k (.handler h) = false by simp [joinsThread, here, same, own]]
      exact held.move here (by simp)
  | @idle h request here free =>
    rw [show w.joinsThread k (.handler h) = false by simp [joinsThread, here, free]]
    exact held.move here (by simp)
  | arrive request =>
    exact held.imp_right fun ⟨one, old, waits⟩ => ⟨one, old, fun same => (waits same).spawn⟩
  | joinFail here free => exact absurd free (exclusive.joins _ _ here rfl)
  | join here same found exited =>
    rw [not_joinsThread here (by simp)]
    exact held.swap (Nat.le_refl _) fun i unheld => by contradiction
  | launch here free =>
    rw [not_joinsThread here (by simp)]
    refine held.swap ?_ fun i same => Nat.le_of_eq (Option.some.inj same)
    simp [moveTo]
  | work found agrees moved | write found moved written | writeFail found moved unwritten
  | clear found moved | finish found moved => exact held.work (by simp)
  | dispatch moved => exact held
  | terminate here same =>
    rw [not_joinsThread here (by simp)]
    exact held
  | create rd here => exact held.move here (by simp)
  | giveUp here unset => exact held.move here (by simp)
  | _ here =>
    rw [not_joinsThread here (by simp)]
    exact held.move here (by simp)

/-- A call that has the thread object to itself does not misuse it. -/
theorem Exclusive.not_misuses (held : Exclusive w.handle w.handlers) :
    w.misuses event = false := by
  unfold misuses
  split
  · split
    · rename_i here
      simpa [Option.isSome_iff_ne_none] using held.joins _ _ here rfl
    · rename_i here
      simpa using held.frees _ _ here rfl
    · rfl
  · rfl

/-- While calls of `JobRunner` do not overlap, each thread is joined by at most one caller, no
`join` finds the thread object already joined, and it is never assigned while it is joinable. -/
theorem thread_object_used_once (events : List Event) (w : World)
    (reached : Transition.run World.step {} events = some w)
    (apart : Transition.Along World.step (fun w event => w.intrudes event = false) {} events) :
    (∀ k, Transition.tally World.step (joinsThread k) {} events ≤ 1) ∧
      Transition.Along World.step (fun w event => w.misuses event = false) {} events := by
  have start : Exclusive ({} : World).handle ({} : World).handlers :=
    ⟨fun i j a b found => by simp at found, by simp, by simp⟩
  constructor
  · intro k
    have counted : Exclusive w.handle w.handlers ∧ Joinable w.handle w.threads ∧
        Joiners k w.handle w.threads w.handlers
          (Transition.tally World.step (joinsThread k) {} events) := by
      refine Transition.run_tally (fun (w : World) count => Exclusive w.handle w.handlers ∧
        Joinable w.handle w.threads ∧ Joiners k w.handle w.threads w.handlers count) ?_
        ⟨start, joinable Transition.run_nil, .inl rfl⟩ reached apart
      intro state event after count held one moved
      obtain ⟨exclusive, joinable, joiners⟩ := held
      exact ⟨exclusive.step one moved, joinable.step moved,
        joiners.step exclusive joinable moved⟩
    obtain ⟨-, -, silent | ⟨one, -⟩⟩ := counted <;> omega
  · exact .of_invariant (fun w : World => Exclusive w.handle w.handlers)
      (fun held one moved => held.step one moved) (fun held => held.not_misuses) start apart

/-- A job is started and stopped, and its thread is joined. -/
def stopAlone : List Event :=
  initCall 0 ++ (startCall 1 5000 fun _ => 0) ++
    [.request .stop, .handler 2, .handler 2, .job 0 (.clock 0), .job 0 (.running false),
      .job 0 .tau, .job 0 .tau, .job 0 .tau, .handler 2]

/-- One stop joins the thread once. -/
theorem stopAlone_used_once : ∃ w, Transition.run World.step {} stopAlone = some w ∧
    Transition.tally World.step (joinsThread 0) {} stopAlone = 1 ∧
    (∀ k, Transition.tally World.step (joinsThread k) {} stopAlone ≤ 1) ∧
    Transition.Along World.step (fun w event => w.misuses event = false) {} stopAlone := by
  obtain ⟨w, reached⟩ : ∃ w, Transition.run World.step {} stopAlone = some w := ⟨_, rfl⟩
  have used := thread_object_used_once stopAlone w reached (by decide)
  exact ⟨w, reached, by decide, used⟩

/-- Two stops find the thread joinable before either joins it. -/
def twoStops : List Event :=
  initCall 0 ++ (startCall 1 5000 fun _ => 0) ++
    [.request .stop, .request .stop, .handler 2, .handler 3, .handler 2, .handler 3,
      .job 0 (.clock 0), .job 0 (.running false), .job 0 .tau, .job 0 .tau, .job 0 .tau,
      .handler 2, .handler 3]

/-- A start is accepted and finds no thread to join. -/
def acceptedStart (h : Nat) : List Event :=
  [.request (.start 5000), .handler h] ++ serve ++ [.handler h, .handler h, .handler h]

/-- A stop finds no thread to join and is answered. -/
def idleStop (h : Nat) : List Event :=
  [.request .stop, .handler h, .handler h, .handler h] ++ serve ++ [.handler h]

/-- A start that is past its check creates its record and assigns the thread. -/
def assigns (h : Nat) (rd : Fin 8 → UInt32) : List Event := [.draw h rd, .handler h, .handler h]

/-- Two starts find no thread to join, the second one after a stop and an `INIT`, and both
assign. -/
def twoStarts : List Event :=
  initCall 0 ++ acceptedStart 1 ++ idleStop 2 ++ initCall 3 ++ acceptedStart 4 ++
    assigns 1 (fun _ => 0) ++ assigns 4 (fun _ => 1)

/-- Both stops go on to join the one thread, and the second `join` throws; the second start
assigns over the thread of the first, and the process ends. -/
theorem handle_misused :
    (∃ w, Transition.run World.step {} twoStops = some w ∧
      Transition.tally World.step (joinsThread 0) {} twoStops = 2 ∧
      w.handlers[3]? = some ⟨.stop, .answered (errorResponse 500 "")⟩) ∧
    ∃ w, Transition.run World.step {} twoStarts = some w ∧ w.handle = some 0 ∧
      w.aborted = true := by
  have stopped : (Transition.run World.step {} twoStops).map (fun w => w.handlers[3]?) =
      some (some ⟨.stop, .answered (errorResponse 500 "")⟩) := by decide +kernel
  have started : (Transition.run World.step {} twoStarts).map (fun w => (w.handle, w.aborted)) =
      some (some 0, true) := by decide +kernel
  obtain ⟨v, ran, failed⟩ := Option.map_eq_some_iff.mp stopped
  obtain ⟨w, reached, ended⟩ := Option.map_eq_some_iff.mp started
  obtain ⟨handle, aborted⟩ := Prod.mk.inj ended
  exact ⟨⟨v, ran, by decide +kernel, failed⟩, w, reached, handle, aborted⟩

end World

end QrEdgeGateway
