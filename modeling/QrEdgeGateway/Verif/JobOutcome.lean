import QrEdgeGateway.JobRunner

/-!
# What one job stores

A call of `run_job` is followed from its first step to its return, whatever it observes. What
it does to the rest of the service is the list of its actions; what it was given is the list of
frames that `read_cobs_frame` returned and no observed cancellation follows. The one outcome it
stores is determined by the second list: the first QR text in it, if there is one.

The induction is on the observations left. A job that has decided nothing keeps its question
open from step to step; the step that decides settles what all later steps do.
-/

namespace QrEdgeGateway

/-- The frame `read_cobs_frame` has just returned. -/
def JobPc.returned : JobPc → Option Bytes
  | .closed true enc => some enc
  | _ => none

/-- The frame about to be tested. -/
def JobPc.tested : JobPc → Option Bytes
  | .decoding true enc => some enc
  | _ => none

/-- A frame counts unless a cancellation is observed after it. -/
def uncancelled (frame : Option Bytes) (obs : List Obs) : List Bytes :=
  if .running false ∈ obs then [] else frame.toList

namespace Job

/-- What a run does outside the job's locals, in order, with the identifier it does it for. -/
def actions (j : Job) : List Obs → List (String × Effect)
  | [] => []
  | first :: rest =>
    ((j.step first).map fun (k, effect) =>
      (if effect = .silent then [] else [(k.id, effect)]) ++ k.actions rest).getD []

/-- The frames returned along a run and not followed by an observed cancellation, in order. -/
def kept (j : Job) : List Obs → List Bytes
  | [] => []
  | first :: rest =>
    uncancelled j.pc.returned (first :: rest) ++
      ((j.next first).map fun k => k.kept rest).getD []

/-- One terminal write, then the flag, then one `FINISH_JOB`, all for one job. -/
def closing (id : String) (outcome : Outcome) : List (String × Effect) :=
  [(id, .write outcome), (id, .clearRunning), (id, .submitFinish)]

variable {j k final : Job} {obs : Obs} {rest : List Obs} {outcome : Outcome} {effect : Effect}

/-- A step in front of a run prepends what it does. -/
theorem actions_cons (moved : j.step obs = some (k, effect)) :
    j.actions (obs :: rest) =
      (if effect = .silent then [] else [(k.id, effect)]) ++ k.actions rest := by
  simp [actions, moved]

/-- A step in front of a run prepends the frame that was returned before it. -/
theorem kept_cons (moved : j.step obs = some (k, effect)) :
    j.kept (obs :: rest) = uncancelled j.pc.returned (obs :: rest) ++ k.kept rest := by
  simp [kept, next, moved]

/-- Where a job can only take one step, a run that returns takes it. -/
theorem run_forced (target : JobPc) (effect : Effect) {events : List Obs}
    (only : ∀ obs, j.step obs = if obs = .tau then some ({ j with pc := target }, effect) else none)
    (inside : j.pc ≠ .exited) (reached : Transition.run Job.next j events = some final)
    (returns : final.pc = .exited) :
    ∃ rest, events = .tau :: rest ∧
      Transition.run Job.next { j with pc := target } rest = some final := by
  cases events with
  | nil =>
    obtain rfl := Option.some.inj reached
    exact absurd returns inside
  | cons first rest =>
    obtain ⟨k, moved, onward⟩ := Transition.run_cons.mp reached
    by_cases tau : first = .tau
    · subst tau
      simp only [next, only, if_true, Option.map_some, Option.some.injEq] at moved
      subst moved
      exact ⟨rest, rfl, onward⟩
    · simp [next, only, tau] at moved

/-- From the write on a job takes three more steps, which observe nothing and close it. -/
theorem run_storing {events : List Obs} (storing : j.pc = .storing outcome)
    (reached : Transition.run Job.next j events = some final) (returns : final.pc = .exited) :
    events = [.tau, .tau, .tau] ∧ final = { j with pc := .exited } := by
  obtain ⟨rest, rfl, second⟩ := run_forced .clearing (.write outcome)
    (fun obs => by cases obs <;> simp [step, storing]) (by simp [storing]) reached returns
  obtain ⟨rest, rfl, third⟩ := run_forced .finishing .clearRunning
    (fun obs => by cases obs <;> simp [step]) (by simp) second returns
  obtain ⟨rest, rfl, last⟩ := run_forced .exited .submitFinish
    (fun obs => by cases obs <;> simp [step]) (by simp) third returns
  cases rest with
  | nil => exact ⟨rfl, (Option.some.inj last).symm⟩
  | cons first rest =>
    obtain ⟨k, moved, -⟩ := Transition.run_cons.mp last
    simp [next, step] at moved

/-- Those steps are the closing ones, and no frame is returned in them. -/
theorem closing_of_storing (storing : j.pc = .storing outcome) :
    j.actions [.tau, .tau, .tau] = closing j.id outcome ∧ j.kept [.tau, .tau, .tau] = [] := by
  constructor
  · simp [actions, step, storing, closing]
  · simp [kept, next, step, storing, uncancelled, JobPc.returned]

/-- The job has neither decided on an outcome nor stored one. -/
def Undecided (j : Job) : Prop := j.Live ∧ ∀ outcome, j.pc ≠ .storing outcome

/-- How a run that returns ends, seen from a point where the job has decided nothing. -/
structure Ends (j : Job) (obs : List Obs) (final : Job) (outcome : Outcome) : Prop where
  /-- The outcome is stored once and the job closed once. -/
  acts : j.actions obs = closing j.id outcome
  /-- A QR text is stored exactly if one was kept, and it is the first. -/
  found : ∀ qr, outcome = .done qr ↔
    (uncancelled j.pc.tested obs ++ j.kept obs).findSome? acceptFrame = some qr
  /-- A timeout was read off the clock. -/
  late : outcome = .timeout → ∃ now, .clock now ∈ obs ∧ final.deadline ≤ now
  /-- A cancellation was observed. -/
  told : outcome = .cancelled → .running false ∈ obs

/-- A step that decides nothing leaves the end as it is, if the frames in question are the
same before and after it. -/
theorem Ends.drift (ends : k.Ends rest final outcome) (moved : j.step obs = some (k, .silent))
    (frames : (uncancelled j.pc.tested (obs :: rest) ++
        uncancelled j.pc.returned (obs :: rest)).findSome? acceptFrame =
      (uncancelled k.pc.tested rest).findSome? acceptFrame) :
    j.Ends (obs :: rest) final outcome where
  acts := by
    have same : k.id = j.id := (of_silent moved).1
    rw [actions_cons moved, if_pos rfl, List.nil_append, ends.acts, same]
  found qr := by
    rw [ends.found, kept_cons moved, ← List.append_assoc, List.findSome?_append,
      List.findSome?_append, frames]
  late timeout := by
    obtain ⟨now, read, past⟩ := ends.late timeout
    exact ⟨now, List.mem_cons_of_mem _ read, past⟩
  told cancelled := List.mem_cons_of_mem _ (ends.told cancelled)

/-- A step that decides fixes the end. -/
theorem ends_of_decision {events : List Obs} (moved : j.step obs = some (k, .silent))
    (storing : k.pc = .storing outcome) (reached : Transition.run Job.next k events = some final)
    (returns : final.pc = .exited)
    (found : ∀ qr, outcome = .done qr ↔
      (uncancelled j.pc.tested [obs, .tau, .tau, .tau] ++
        uncancelled j.pc.returned [obs, .tau, .tau, .tau]).findSome? acceptFrame = some qr)
    (late : outcome = .timeout → ∃ now, obs = .clock now ∧ k.deadline ≤ now)
    (told : outcome = .cancelled → obs = .running false) :
    j.Ends (obs :: events) final outcome := by
  obtain ⟨rfl, rfl⟩ := run_storing storing reached returns
  obtain ⟨closed, unheld⟩ := closing_of_storing storing
  have same : k.id = j.id := (of_silent moved).1
  refine ⟨?_, fun qr => ?_, fun timeout => ?_, fun cancelled => ?_⟩
  · rw [actions_cons moved, if_pos rfl, List.nil_append, closed, same]
  · rw [found, kept_cons moved, unheld, List.append_nil]
  · obtain ⟨now, rfl, past⟩ := late timeout
    exact ⟨now, by simp, past⟩
  · simp [told cancelled]

/-- Inside `read_cobs_frame` nothing is decided and no frame is to be tested. -/
theorem undecided_ofReader (reader : Reader) (pc : JobPc) (same : pc = .ofReader reader) :
    pc.written = false ∧ (∀ outcome, pc ≠ .storing outcome) ∧ pc.tested = none := by
  subst same
  refine ⟨written_ofReader reader, ofReader_ne_storing reader, ?_⟩
  unfold JobPc.ofReader
  split <;> rfl

/-- The tests of a frame drop it unless it is worth a payload, which is then to be stored. -/
theorem judge_verdict (got : Bool) (enc : Bytes) :
    ((JobPc.decoding got enc).tested.toList.findSome? acceptFrame = none ∧
      judge got enc = .head) ∨
    ∃ payload, acceptFrame enc = some payload ∧ (JobPc.decoding got enc).tested = some enc ∧
      judge got enc = .storing (.done payload) := by
  cases got with
  | false => exact .inl ⟨rfl, rfl⟩
  | true =>
    cases accepted : acceptFrame enc with
    | none => exact .inl ⟨by simp [JobPc.tested, accepted], by simp [judge, accepted]⟩
    | some payload => exact .inr ⟨payload, rfl, rfl, by simp [judge, accepted]⟩

/-- A run that returns from a point where the job has decided nothing ends in one way. -/
theorem exists_ends {events : List Obs} (undecided : j.Undecided)
    (reached : Transition.run Job.next j events = some final) (returns : final.pc = .exited) :
    ∃ outcome, j.Ends events final outcome := by
  induction events generalizing j with
  | nil =>
    obtain rfl := Option.some.inj reached
    exact absurd returns undecided.1.unfinished
  | cons obs rest ih =>
    obtain ⟨k, moved, onward⟩ := Transition.run_cons.mp reached
    obtain ⟨⟨job, effect⟩, stepped, rfl⟩ := Option.map_eq_some_iff.mp moved
    -- a step that decides nothing and tests nothing
    have drift : effect = .silent → job.Undecided → j.pc.tested = none →
        j.pc.returned = none → job.pc.tested = none →
        ∃ outcome, j.Ends (obs :: rest) final outcome := by
      rintro rfl open' before returned after
      obtain ⟨outcome, ends⟩ := ih open' onward
      exact ⟨outcome, ends.drift stepped (by simp [before, returned, after, uncancelled])⟩
    cases step_move stepped with
    | date now here | budget now here early =>
      exact drift rfl ⟨rfl, by simp⟩ (by rw [here]; rfl) (by rw [here]; rfl) rfl
    | proceed here | retry here =>
      exact drift rfl ⟨rfl, by simp⟩ (by rw [here]; rfl) (by rw [here]; rfl) rfl
    | @enter remainingMs here =>
      obtain ⟨live, open', unheld⟩ := undecided_ofReader (.enter remainingMs) _ rfl
      exact drift rfl ⟨live, open'⟩ (by rw [here]; rfl) (by rw [here]; rfl) unheld
    | @read _ _ next here inner =>
      obtain ⟨live, open', unheld⟩ := undecided_ofReader next _ rfl
      exact drift rfl ⟨live, open'⟩ (by rw [here]; rfl) (by rw [here]; rfl) unheld
    | leave here | abandon here =>
      exact ⟨_, ends_of_decision stepped rfl onward returns (by simp [uncancelled]) (by simp)
        (by simp)⟩
    | expire now here past =>
      exact ⟨_, ends_of_decision stepped rfl onward returns
        (by simp [here, uncancelled, JobPc.tested, JobPc.returned])
        (fun _ => ⟨now, rfl, past⟩) (by simp)⟩
    | @close got enc here =>
      have open' : ({ j with pc := .decoding got enc } : Job).Undecided := ⟨rfl, by simp⟩
      obtain ⟨outcome, ends⟩ := ih open' onward
      refine ⟨outcome, ends.drift stepped ?_⟩
      cases got <;> simp [here, uncancelled, JobPc.tested, JobPc.returned]
    | @test got enc here =>
      obtain ⟨worthless, same⟩ | ⟨payload, accepted, tested, same⟩ := judge_verdict got enc
      · -- the frame is dropped, and the search for a QR text goes on behind it
        have open' : ({ j with pc := judge got enc } : Job).Undecided := by
          rw [same]
          exact ⟨rfl, by simp⟩
        obtain ⟨outcome, ends⟩ := ih open' onward
        refine ⟨outcome, ends.drift stepped ?_⟩
        have after : (judge got enc).tested = none := by rw [same]; rfl
        simp only [here, after, uncancelled, JobPc.returned]
        split <;> simp [worthless]
      · refine ⟨.done payload, ends_of_decision stepped same onward returns ?_ (by simp) (by simp)⟩
        intro qr
        simp [here, tested, uncancelled, accepted]
    | store here => exact absurd here (undecided.2 _)
    | clear here => simp [Undecided, Live, here, JobPc.written] at undecided
    | finish here => simp [Undecided, Live, here, JobPc.written] at undecided

/-- The deadline is computed once, by the first step. -/
theorem deadline_of_first {started : Int} {rest : List Obs} (here : j.pc = .entry)
    (reached : Transition.run Job.next j (.clock started :: rest) = some final) :
    final.deadline = started + j.timeoutMs * nsPerMs := by
  obtain ⟨k, moved, onward⟩ := Transition.run_cons.mp reached
  have dated : k = { j with deadline := started + j.timeoutMs * nsPerMs, pc := .head } := by
    simpa [next, step, here] using moved.symm
  refine (Transition.run_stable (fun job : Job => job.pc ≠ .entry ∧
    job.deadline = started + j.timeoutMs * nsPerMs) ?_ (by simp [dated]) onward).2
  intro state obs after held taken
  obtain ⟨effect, move⟩ := next_move taken
  cases move with
  | date now here => exact absurd here held.1
  | @enter remainingMs here => exact ⟨by simp [JobPc.ofReader]; split <;> simp, held.2⟩
  | @read _ _ reader here inner => exact ⟨by simp [JobPc.ofReader]; split <;> simp, held.2⟩
  | @test got enc here =>
    obtain same | ⟨payload, -, same⟩ := judge_cases got enc
    · exact ⟨by simp [same], held.2⟩
    · exact ⟨by simp [same], held.2⟩
  | expire now here late | budget now here early => exact ⟨by simp, held.2⟩
  | _ here => exact ⟨by simp, held.2⟩

/-- A call of `run_job` that returns has stored one outcome for its own identifier and then
submitted one `FINISH_JOB`. It has stored a QR text exactly if a frame it was given decodes to a
text that starts with `QR:` and no cancellation was observed after it, and it has stored the first
such text as it was decoded. A stored timeout was read off the clock, a stored cancellation was
observed. -/
theorem outcome_is_exact (id : String) (timeoutMs : Int) (obs : List Obs) {final : Job}
    (reached : Transition.run Job.next { id, timeoutMs } obs = some final)
    (returns : final.pc = .exited) :
    ∃ outcome started, obs.head? = some (.clock started) ∧
      ({ id, timeoutMs } : Job).actions obs =
        [(id, .write outcome), (id, .clearRunning), (id, .submitFinish)] ∧
      (∀ qr, outcome = .done qr ↔
        (({ id, timeoutMs } : Job).kept obs).findSome?
          (fun enc => (cobsDecode enc).filter startsWithQr) = some qr) ∧
      (outcome = .timeout →
        ∃ now, .clock now ∈ obs ∧ started + timeoutMs * nsPerMs ≤ now) ∧
      (outcome = .cancelled → .running false ∈ obs) := by
  have undecided : ({ id, timeoutMs } : Job).Undecided := ⟨rfl, by simp⟩
  obtain ⟨outcome, ends⟩ := exists_ends undecided reached returns
  have first : ∃ started rest, obs = .clock started :: rest := by
    cases obs with
    | nil =>
      obtain rfl := Option.some.inj reached
      contradiction
    | cons first rest =>
      obtain ⟨k, moved, -⟩ := Transition.run_cons.mp reached
      cases first with
      | clock started => exact ⟨started, rest, rfl⟩
      | _ => simp [next, step] at moved
  obtain ⟨started, rest, rfl⟩ := first
  have deadline : final.deadline = started + timeoutMs * nsPerMs := deadline_of_first rfl reached
  -- at its entry the job holds no frame
  have unheld : uncancelled ({ id, timeoutMs } : Job).pc.tested (.clock started :: rest) = [] := by
    simp [uncancelled, JobPc.tested]
  have found := ends.found
  rw [unheld, List.nil_append, funext acceptFrame_eq] at found
  refine ⟨outcome, started, rfl, ends.acts, found, ?_, ends.told⟩
  rw [← deadline]
  exact ends.late

/-- The observations of a job that reads one frame and stores its text. -/
def promptObs : List Obs :=
  [.clock 0, .running true, .clock 0, .opened true, .running true, .poll .readable,
    .running true, .read (.data qrChunk), .running true, .tau, .tau, .tau, .tau]

/-- That job stores `QR:` once, for itself. -/
theorem outcome_is_exact_prompt :
    ∃ final, Transition.run Job.next { id := "0a", timeoutMs := 1000 } promptObs = some final ∧
      final.pc = .exited ∧
      ∃ outcome started, promptObs.head? = some (.clock started) ∧
        ({ id := "0a", timeoutMs := 1000 } : Job).actions promptObs =
          [("0a", .write outcome), ("0a", .clearRunning), ("0a", .submitFinish)] ∧
        outcome = .done qrPrefix := by
  have reached : Transition.run Job.next { id := "0a", timeoutMs := 1000 } promptObs =
      some { id := "0a", timeoutMs := 1000, deadline := 1000000000, pc := .exited } := by decide
  obtain ⟨outcome, started, first, acts, found, -, -⟩ := outcome_is_exact _ _ _ reached rfl
  exact ⟨_, reached, rfl, outcome, started, first, acts, (found qrPrefix).mpr (by decide)⟩

end Job

end QrEdgeGateway
