import QrEdgeGateway.Verif.Reading

/-!
# Runs without errors

Without errors, cancellation or a spent budget the outcome of a job is a function of the chunks
its reads deliver. The function digests them in order: a chunk without a delimiter extends the
frame, a delimiter ends the call, and the next call begins with the next chunk. Every such run
stores what the function says, and for every list of chunks there is such a run.
-/

namespace QrEdgeGateway

/-- What a job makes of the chunks to come, behind the part of a frame it holds. -/
def digest (frame : Bytes) : List Chunk → Outcome
  | [] => .timeout
  | chunk :: rest =>
    match scanChunk frame chunk.bytes with
    | .consumed frame => digest frame rest
    | .tooLarge _ => digest [] rest
    | .delimiter frame =>
      match acceptFrame frame with
      | some qr => .done qr
      | none => digest [] rest

/-- An empty frame holds no QR text. -/
theorem acceptFrame_nil : acceptFrame [] = none := by decide

/-- The observation is neither an error nor a cancellation. -/
def Obs.benign : Obs → Bool
  | .running flag => flag
  | .opened ok => ok
  | .poll .interrupted => true
  | .poll .timeout => true
  | .poll .readable => true
  | .poll .idle => true
  | .poll _ => false
  | .read .interrupted => true
  | .read .again => true
  | .read (.data _) => true
  | .read _ => false
  | _ => true

namespace Fed

/-- The step spends the budget of the call or passes the deadline although chunks are left. -/
def exhausts (f : Fed) (obs : Obs) : Bool :=
  !(f.pending.drop obs.reads.length).isEmpty &&
    match f.job.pc, obs with
    | .clock, .clock now => now ≥ f.job.deadline
    | .reading r, obs =>
      match r.step obs with
      | some next => next.remaining ≤ 0
      | none => false
    | _, _ => false

/-- No error, no cancellation, and time enough for the stream. -/
def smooth (f : Fed) (obs : Obs) : Bool := obs.benign && !f.exhausts obs

/-- What the tests of a returned frame lead to. -/
def verdict (got : Bool) (enc : Bytes) (pending : List Chunk) : Outcome :=
  if got then
    match acceptFrame enc with
    | some qr => .done qr
    | none => digest [] pending
  else digest [] pending

/-- A received frame leads where `digest` says. -/
theorem verdict_received (enc : Bytes) (pending : List Chunk) :
    verdict (!enc.isEmpty) enc pending =
      match acceptFrame enc with
      | some qr => .done qr
      | none => digest [] pending := by
  cases enc with
  | nil => simp [verdict, acceptFrame_nil]
  | cons byte rest => rfl

/-- What the job will store, if all goes smoothly. -/
def outcome (f : Fed) : Outcome :=
  match f.job.pc with
  | .reading r => digest r.frame f.pending
  | .closed got enc => verdict got enc f.pending
  | .decoding got enc => verdict got enc f.pending
  | .storing outcome => outcome
  | _ => digest [] f.pending

end Fed

/-! ## A smooth job is on its way -/

namespace Reader

/-- A call under way that has met no error and has budget left. -/
structure Sound (r : Reader) : Prop where
  /-- The call has not returned. -/
  inside : ∀ got, r.pc ≠ .returned got
  /-- The budget is not spent. -/
  left : 0 < r.remaining
  /-- The last `poll` did not fail. -/
  polled : ∀ result, r.pc = .polled result → (Obs.poll result).benign = true

/-- The call has returned nothing because its budget is spent. -/
def Spent (r : Reader) : Prop := r.pc = .returned false ∧ r.remaining ≤ 0

/-- The loop condition goes on with budget left and returns nothing without. -/
theorem again_cases (r : Reader) : r.again.Sound ∨ r.again.Spent := by
  unfold again
  split
  · rename_i left
    exact .inl ⟨by simp, left, by simp⟩
  · rename_i spent
    exact .inr ⟨rfl, Int.not_lt.mp spent⟩

/-- Without an error a call goes on or spends its budget; unless it is given a chunk. -/
theorem step_benign {r next : Reader} {obs : Obs} (sound : r.Sound)
    (benign : obs.benign = true) (other : ∀ chunk, obs ≠ .read (.data chunk))
    (moved : r.step obs = some next) : next.Sound ∨ next.Spent := by
  cases step_move moved with
  | data chunk here => exact absurd rfl (other chunk)
  | quit here | readFail here | readEnd here => contradiction
  | pollFail here =>
    obtain here | here := here
    all_goals exact absurd (sound.polled _ here) (by decide)
  | proceed here | ready here => exact .inl ⟨by simp, sound.left, by simp⟩
  | poll result here =>
    refine .inl ⟨by simp, sound.left, fun found same => ?_⟩
    cases same
    exact benign
  | pollAgain here | readAgain here => exact again_cases r
  | pollIdle here | readIdle here => exact again_cases _

end Reader

namespace Fed

variable {goal : Outcome} {f g : Fed} {obs : Obs}

/-- Until its write the job is on the way to this outcome; a call under way has met no error. -/
def Heading (goal : Outcome) (f : Fed) : Prop :=
  (f.job.Live → f.outcome = goal) ∧ ∀ r, f.job.pc = .reading r → r.Sound

/-- A call that goes on keeps the job on its way; so does one that spends its budget where a
fresh call would come to the same. -/
theorem heading_ofReader {job : Job} {pending : List Chunk} {r : Reader}
    (state : r.Sound ∨ r.Spent) (same : digest r.frame pending = goal)
    (afresh : r.remaining ≤ 0 → digest [] pending = goal) :
    Heading goal ⟨{ job with pc := .ofReader r }, pending⟩ := by
  rcases state with sound | ⟨returned, spent⟩
  · rw [Job.ofReader_inside sound.inside]
    refine ⟨fun _ => same, fun other reading => ?_⟩
    cases reading
    exact sound
  · have closed : JobPc.ofReader r = .closed false r.frame := by
      simp [JobPc.ofReader, returned]
    rw [closed]
    exact ⟨fun _ => afresh spent, by simp⟩

/-- A chunk takes the job on as `digest` says, if the last one alone may spend the budget. -/
theorem heading_onChunk {job : Job} {pending : List Chunk} {r : Reader} {chunk : Chunk}
    (same : digest r.frame (chunk :: pending) = goal)
    (enough : (r.onChunk chunk).remaining ≤ 0 → pending = []) :
    Heading goal ⟨{ job with pc := .ofReader (r.onChunk chunk) }, pending⟩ := by
  unfold digest at same
  unfold Reader.onChunk at enough ⊢
  cases scanned : scanChunk r.frame chunk.bytes with
  | consumed out =>
    simp only [scanned] at same enough
    refine heading_ofReader (Reader.again_cases _) ?_ fun spent => ?_
    · simpa only [Reader.charge_frame] using same
    · obtain rfl := enough spent
      exact same
  | tooLarge out =>
    simp only [scanned] at same
    exact ⟨fun _ => same, by simp [JobPc.ofReader, Reader.ret]⟩
  | delimiter out =>
    simp only [scanned] at same
    refine ⟨fun _ => ?_, by simp [JobPc.ofReader, Reader.ret]⟩
    exact (verdict_received out pending).trans same

/-- The tests of a frame keep the job on its way. -/
theorem heading_judge {job : Job} {pending : List Chunk} {got : Bool} {enc : Bytes}
    (same : verdict got enc pending = goal) :
    Heading goal ⟨{ job with pc := Job.judge got enc }, pending⟩ := by
  unfold verdict at same
  unfold Job.judge
  cases got with
  | false => exact ⟨fun _ => same, by simp⟩
  | true =>
    simp only [if_true] at same
    simp only [Bool.not_true, Bool.false_eq_true, if_false]
    cases accepted : acceptFrame enc with
    | some qr =>
      rw [accepted] at same
      exact ⟨fun _ => same, by simp⟩
    | none =>
      rw [accepted] at same
      exact ⟨fun _ => same, by simp⟩

/-- A smooth step keeps the job on its way. -/
theorem heading_step (heading : Heading goal f) (smooth : f.smooth obs = true)
    (taken : f.step obs = some g) : Heading goal g := by
  obtain ⟨after, left⟩ := g
  obtain ⟨advanced, pending⟩ := step_iff.mp taken
  obtain ⟨effect, move⟩ := Job.next_move advanced
  obtain ⟨before, all⟩ := f
  obtain ⟨same, calls⟩ := heading
  dsimp only at pending move calls
  subst pending
  simp only [Fed.smooth, Bool.and_eq_true, Bool.not_eq_true'] at smooth
  obtain ⟨benign, enough⟩ := smooth
  simp only [exhausts, List.drop_left, Bool.and_eq_false_iff, Bool.not_eq_false',
    List.isEmpty_iff] at enough
  have headed {point : JobPc} (here : before.pc = point) (live : point.written = false) :
      outcome ⟨{ before with pc := point }, obs.reads ++ left⟩ = goal := by
    subst here
    exact same live
  cases move with
  | date now here | budget now here =>
    have value := headed here rfl
    exact ⟨fun _ => value, by simp⟩
  | proceed here | close here =>
    have value := headed here rfl
    exact ⟨fun _ => value, by simp⟩
  | leave here | retry here | abandon here => contradiction
  | expire now here late =>
    have value := headed here rfl
    simp only [here, late, decide_true, Bool.true_eq_false, or_false] at enough
    subst enough
    exact ⟨fun _ => value, by simp⟩
  | enter here =>
    have fresh := headed here rfl
    refine heading_ofReader (Reader.again_cases _) ?_ fun _ => fresh
    rw [Reader.enter, Reader.again_frame]
    exact fresh
  | @read _ r next here stepped =>
    have call := headed here rfl
    have last : next.remaining ≤ 0 → left = [] := by
      intro spent
      simpa [here, stepped, spent] using enough
    obtain ⟨chunk, rfl, rfl⟩ | ⟨other, frame, -, -⟩ := Reader.step_cases stepped
    · exact heading_onChunk call last
    · simp only [outcome, Obs.reads_eq_nil other, List.nil_append, ← frame] at call
      refine heading_ofReader (Reader.step_benign (calls r here) benign other stepped) call ?_
      intro spent
      obtain rfl := last spent
      exact call
  | test here => exact heading_judge (headed here rfl)
  | store here | clear here | finish here =>
    exact ⟨fun live => absurd live (by simp [Job.Live, JobPc.written]), by simp⟩

/-- What a smooth run stores is what `digest` makes of the cut. -/
theorem stored_eq_digest {id : String} {timeoutMs : Int} {cut : List Chunk} {obs : List Obs}
    {final : Fed} {stored : Outcome}
    (reached : Transition.run Fed.step ⟨{ id, timeoutMs }, cut⟩ obs = some final)
    (smooth : Transition.Along Fed.step (fun f obs => f.smooth obs = true)
      ⟨{ id, timeoutMs }, cut⟩ obs)
    (stands : final.job.pc = .storing stored) : stored = digest [] cut := by
  have start : Heading (digest [] cut) ⟨{ id, timeoutMs }, cut⟩ := ⟨fun _ => rfl, by simp⟩
  obtain ⟨same, -⟩ := Transition.run_invariant _ heading_step start reached smooth
  have value := same (by simp [Job.Live, stands, JobPc.written])
  simpa [outcome, stands] using value

/-! ## Every cut has a smooth run -/

/-- The observations lead smoothly from one state to the other. -/
def Smoothly (f : Fed) (obs : List Obs) (g : Fed) : Prop :=
  Transition.Admits Fed.step (fun f obs => f.smooth obs = true) f obs g

variable {j : Job} {r : Reader} {chunk : Chunk} {pending : List Chunk} {remaining : Int}
  {frame : Bytes} {more : List Obs}

/-- A step inside a call, with budget left or nothing more to read. -/
theorem smoothly_call (obs : Obs) (r next : Reader) (benign : obs.benign = true)
    (moved : r.step obs = some next) (enough : next.remaining ≤ 0 → pending = [])
    (rest : Smoothly ⟨{ j with pc := .ofReader next }, pending⟩ more g) :
    Smoothly ⟨{ j with pc := .reading r }, obs.reads ++ pending⟩ (obs :: more) g := by
  refine Transition.Admits.cons ?_ (step_iff.mpr ⟨?_, rfl⟩) rest
  · simp only [smooth, exhausts, benign, moved, List.drop_left, Bool.true_and,
      Bool.not_eq_true', Bool.and_eq_false_iff, Bool.not_eq_false', List.isEmpty_iff,
      decide_eq_false_iff_not]
    by_cases spent : next.remaining ≤ 0
    · exact .inl (enough spent)
    · exact .inr spent
  · simp [Job.next, Job.step, moved]

/-- A round up to the `read`, or up to the loop condition if there is nothing to read. -/
theorem smoothly_poll (result : PollResult) (next : Reader)
    (benign : (Obs.poll result).benign = true) (left : 0 < remaining)
    (moved : Reader.step { remaining, frame, pc := .polled result } (.running true) = some next)
    (enough : next.remaining ≤ 0 → pending = [])
    (rest : Smoothly ⟨{ j with pc := .ofReader next }, pending⟩ more g) :
    Smoothly ⟨{ j with pc := .reading { remaining, frame } }, pending⟩
      (.running true :: .poll result :: .running true :: more) g := by
  have unspent : remaining ≤ 0 → pending = [] := fun spent => absurd left (Int.not_lt.mpr spent)
  refine smoothly_call (.running true) { remaining, frame } { remaining, frame, pc := .polling }
    rfl rfl unspent ?_
  refine smoothly_call (.poll result) { remaining, frame, pc := .polling }
    { remaining, frame, pc := .polled result } benign rfl unspent ?_
  exact smoothly_call (.running true) { remaining, frame, pc := .polled result } next
    rfl moved enough rest

/-- A round that delivers a chunk, with budget for another. -/
theorem smoothly_data (budget : Reader.stepMs < remaining) :
    Smoothly ⟨{ j with pc := .reading { remaining, frame } }, chunk :: pending⟩
      (Round.data chunk).obs
      ⟨{ j with pc := .ofReader (Reader.onChunk { remaining, frame } chunk) }, pending⟩ := by
  have left : 0 < remaining := Int.lt_trans (by decide) budget
  have after : ¬ (Reader.onChunk { remaining, frame } chunk).remaining ≤ 0 := by
    have cost := Reader.onChunk_remaining { remaining, frame } chunk
    dsimp only at cost
    omega
  refine smoothly_poll .readable { remaining, frame, pc := .reading } rfl left rfl
    (fun spent => absurd left (Int.not_lt.mpr spent)) ?_
  exact smoothly_call (.read (.data chunk)) { remaining, frame, pc := .reading } _ rfl
    (congrArg some (Reader.onChunk_pc { remaining, frame } .reading chunk))
    (fun spent => absurd spent after) .nil

/-- With nothing to read the call spends its budget. -/
theorem smoothly_drain (left : 0 < remaining) :
    ∃ obs, Smoothly ⟨{ j with pc := .reading { remaining, frame } }, []⟩ obs
      ⟨{ j with pc := .closed false frame }, []⟩ := by
  induction measured : remaining.toNat using Nat.strongRecOn generalizing remaining with
  | ind size ih =>
    let charged : Reader := Reader.charge { remaining, frame, pc := .polled .timeout }
    have cost : 0 < Reader.waitMs { remaining, frame, pc := .polled .timeout } := by
      unfold Reader.waitMs Reader.stepMs
      split <;> omega
    have onward : ∃ obs, Smoothly ⟨{ j with pc := .ofReader charged }, []⟩ obs
        ⟨{ j with pc := .closed false frame }, []⟩ := by
      by_cases more : 0 < remaining - Reader.waitMs { remaining, frame, pc := .polled .timeout }
      · simp only [charged, Reader.charge, Reader.again, more, if_true]
        exact ih _ (by omega) more rfl
      · simp only [charged, Reader.charge, Reader.again, more, if_false]
        exact ⟨[], .nil⟩
    obtain ⟨obs, rest⟩ := onward
    exact ⟨_, smoothly_poll .timeout charged rfl left rfl (fun _ => rfl) rest⟩

/-- A step of the job outside its calls. -/
theorem smoothly_next (obs : Obs) (next : Job) (silent : obs.reads = [])
    (smooth : Fed.smooth ⟨j, pending⟩ obs = true) (moved : j.next obs = some next)
    (rest : Smoothly ⟨next, pending⟩ more g) : Smoothly ⟨j, pending⟩ (obs :: more) g :=
  .cons smooth (step_iff.mpr ⟨moved, by simp [silent]⟩) rest

/-- A call that has returned leads to the tests of its frame. -/
theorem smoothly_judge {got : Bool} {enc : Bytes} :
    Smoothly ⟨{ j with pc := .closed got enc }, pending⟩ [.running true, .tau]
      ⟨{ j with pc := Job.judge got enc }, pending⟩ := by
  refine smoothly_next _ { j with pc := .decoding got enc } rfl ?_ rfl ?_
  · simp [smooth, Obs.benign, exhausts]
  refine smoothly_next _ { j with pc := Job.judge got enc } rfl ?_ rfl .nil
  simp [smooth, Obs.benign, exhausts]

/-- A new round of the job before its deadline enters a new call. -/
theorem smoothly_reopen (budget : 0 < j.deadline / nsPerMs) :
    Smoothly ⟨{ j with pc := .head }, pending⟩ [.running true, .clock 0, .opened true]
      ⟨{ j with pc := .reading { remaining := j.deadline / nsPerMs } }, pending⟩ := by
  have early : ¬ (0 : Int) ≥ j.deadline := by
    unfold nsPerMs at budget
    omega
  refine smoothly_next _ { j with pc := .clock } rfl ?_ rfl ?_
  · simp [smooth, Obs.benign, exhausts]
  refine smoothly_next _ { j with pc := .opening (j.deadline / nsPerMs) } rfl ?_ ?_ ?_
  · simp [smooth, Obs.benign, exhausts, early]
  · simp [Job.next, Job.step, early]
  refine smoothly_next _ _ rfl ?_ ?_ .nil
  · simp [smooth, Obs.benign, exhausts]
  · simp [Job.next, Job.step, Reader.enter, Reader.again, budget, JobPc.ofReader]

/-- At the deadline, with nothing left to read, the job times out. -/
theorem smoothly_timeout :
    Smoothly ⟨{ j with pc := .head }, []⟩ [.running true, .clock j.deadline]
      ⟨{ j with pc := .storing .timeout }, []⟩ := by
  refine smoothly_next _ { j with pc := .clock } rfl ?_ rfl ?_
  · simp [smooth, Obs.benign, exhausts]
  refine smoothly_next _ _ rfl ?_ ?_ .nil
  · simp [smooth, Obs.benign, exhausts]
  · simp [Job.next, Job.step]

/-- From this state some smooth run stores this outcome. -/
def Reaches (f : Fed) (goal : Outcome) : Prop :=
  ∃ obs final, Smoothly f obs final ∧ final.job.pc = .storing goal

/-- What is reached behind a smooth run is reached in front of it. -/
theorem Reaches.behind {events : List Obs} (onward : g.Reaches goal)
    (run : Smoothly f events g) : f.Reaches goal := by
  obtain ⟨obs, final, rest, stands⟩ := onward
  exact ⟨events ++ obs, final, run.trans rest, stands⟩

/-- A returned call reaches its verdict if a new round reaches what is left to it. -/
theorem reaches_verdict {got : Bool} {enc : Bytes}
    (afresh : Reaches ⟨{ j with pc := .head }, pending⟩ (digest [] pending)) :
    Reaches ⟨{ j with pc := .closed got enc }, pending⟩ (verdict got enc pending) := by
  refine Reaches.behind ?_ smoothly_judge
  unfold Job.judge verdict
  cases got with
  | false => exact afresh
  | true =>
    simp only [Bool.not_true, Bool.false_eq_true, if_false, if_true]
    cases acceptFrame enc with
    | some qr => exact ⟨[], _, .nil, rfl⟩
    | none => exact afresh

/-- With budget for every chunk, a call under way reaches what `digest` says. -/
theorem reaches_digest (cut : List Chunk) (frame : Bytes) (remaining : Int)
    (budget : Reader.stepMs * cut.length < remaining)
    (deadline : Reader.stepMs * cut.length < j.deadline / nsPerMs) :
    Reaches ⟨{ j with pc := .reading { remaining, frame } }, cut⟩ (digest frame cut) := by
  induction cut generalizing frame remaining with
  | nil =>
    obtain ⟨obs, drained⟩ : ∃ obs, Smoothly ⟨{ j with pc := .reading { remaining, frame } }, []⟩
      obs ⟨{ j with pc := .closed false frame }, []⟩ := smoothly_drain (by simpa using budget)
    have timed : Reaches ⟨{ j with pc := .head }, []⟩ .timeout := ⟨_, _, smoothly_timeout, rfl⟩
    exact (timed.behind smoothly_judge).behind drained
  | cons chunk rest ih =>
    have cost : Reader.stepMs * ((chunk :: rest).length : Int) =
        Reader.stepMs * rest.length + Reader.stepMs := by
      rw [List.length_cons, Int.natCast_succ, Int.mul_add, Int.mul_one]
    have spare : 0 ≤ Reader.stepMs * (rest.length : Int) :=
      Int.mul_nonneg (by decide) (Int.natCast_nonneg _)
    have positive : 0 < Reader.stepMs := by decide
    rw [cost] at budget deadline
    have afresh : Reaches ⟨{ j with pc := .head }, rest⟩ (digest [] rest) :=
      (ih [] (j.deadline / nsPerMs) (by omega) (by omega)).behind (smoothly_reopen (by omega))
    have enough : Reader.stepMs < remaining := by omega
    refine Reaches.behind ?_ (smoothly_data enough)
    unfold Reader.onChunk digest
    cases scanChunk frame chunk.bytes with
    | consumed out =>
      have charged : Reader.charge { remaining, frame := out } =
          { remaining := remaining - Reader.stepMs, frame := out } := by
        have full : ¬ remaining < Reader.stepMs := by omega
        simp [Reader.charge, Reader.waitMs, full, Reader.again, enough]
      dsimp only
      rw [charged]
      exact ih out (remaining - Reader.stepMs) (by omega) (by omega)
    | tooLarge out => exact reaches_verdict afresh
    | delimiter out =>
      dsimp only
      rw [← verdict_received]
      exact reaches_verdict afresh

/-- Every cut has a smooth run of some job that stores what `digest` says. -/
theorem reaches_of_cut (cut : List Chunk) (id : String) :
    ∃ timeoutMs, Reaches ⟨{ id, timeoutMs }, cut⟩ (digest [] cut) := by
  let timeoutMs : Int := Reader.stepMs * cut.length + 1
  let job : Job := { id, timeoutMs, deadline := 0 + timeoutMs * nsPerMs }
  have spare : 0 ≤ Reader.stepMs * (cut.length : Int) :=
    Int.mul_nonneg (by decide) (Int.natCast_nonneg _)
  have budget : job.deadline / nsPerMs = timeoutMs := by
    unfold job nsPerMs
    dsimp only
    omega
  have begun : Smoothly ⟨{ id, timeoutMs }, cut⟩ [.clock 0] ⟨{ job with pc := .head }, cut⟩ := by
    refine smoothly_next _ _ rfl ?_ rfl .nil
    simp [smooth, Obs.benign, exhausts]
  have opened : Smoothly ⟨{ job with pc := .head }, cut⟩ _ _ :=
    smoothly_reopen (by rw [budget]; omega)
  have called := reaches_digest (j := job) cut [] (job.deadline / nsPerMs)
    (by rw [budget]; omega) (by rw [budget]; omega)
  exact ⟨timeoutMs, (called.behind opened).behind begun⟩

end Fed

end QrEdgeGateway
