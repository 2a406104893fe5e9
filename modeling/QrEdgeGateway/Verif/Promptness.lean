import QrEdgeGateway.Lib.Transition
import QrEdgeGateway.Timing

/-!
# A job keeps its deadline

Every round of a job takes its budget from the time left at its beginning, the reader charges
every wait to that budget, and a sleep after a failed `open` is cut to it. So within a round the
time and the budget left never exceed the deadline, except by what was lost, and the only wait
outside the budget is the pause of 20 ms behind a useless frame. At that point the deadline is
looked at next.
-/

namespace QrEdgeGateway

namespace Reader

variable {r next : Reader} {obs : Obs}

/-- The wait of the round under way, once `poll` has returned. -/
def spentMs (r : Reader) : Int :=
  match r.pc with
  | .polled _ => r.waitMs
  | .reading => r.waitMs
  | _ => 0

/-- A round waits for no more than the budget. -/
theorem waitMs_le (r : Reader) : r.waitMs ≤ r.remaining := by
  unfold waitMs
  split <;> omega

/-- What a call has left may shrink to this, if it is to return or to go on. -/
def Leaves (next : Reader) (left : Int) : Prop :=
  ((∃ got, next.pc = .returned got) ∧ 0 ≤ left) ∨
    (0 < next.remaining ∧ next.remaining - next.spentMs ≤ left)

/-- At the loop condition the budget is what is left. -/
theorem leaves_again {left : Int} (same : r.remaining = left) (nonneg : 0 ≤ left) :
    r.again.Leaves left := by
  unfold again
  split
  · rename_i positive
    refine .inr ⟨positive, ?_⟩
    simp only [spentMs]
    omega
  · exact .inl ⟨⟨false, rfl⟩, nonneg⟩

/-- A charged round leaves the budget without its wait. -/
theorem leaves_charge {left : Int} (same : r.remaining - r.waitMs = left) :
    r.charge.Leaves left := by
  have bound := r.waitMs_le
  exact leaves_again same (by omega)

/-- A step of the call takes its pause from what is left, and gives back an uncharged wait. -/
theorem leaves_step (left : 0 < r.remaining) (moved : r.step obs = some next) :
    next.Leaves (r.remaining - r.spentMs - r.pauseMs obs + r.unchargedMs obs) := by
  have bound := r.waitMs_le
  cases step_move moved with
  | quit here =>
    refine .inl ⟨⟨false, rfl⟩, ?_⟩
    obtain here | ⟨result, here⟩ := here <;> simp [spentMs, pauseMs, unchargedMs, here] <;> omega
  | proceed here =>
    refine .inr ⟨left, ?_⟩
    simp [spentMs, pauseMs, unchargedMs, here]
  | poll result here =>
    refine .inr ⟨left, ?_⟩
    simp [spentMs, pauseMs, unchargedMs, here, waitMs]
  | pollAgain here =>
    apply leaves_again
    · simp [spentMs, pauseMs, unchargedMs, here]
    · simp [spentMs, pauseMs, unchargedMs, here]
      omega
  | pollIdle here =>
    apply leaves_charge
    obtain here | here := here <;> simp [spentMs, pauseMs, unchargedMs, here]
  | pollFail here =>
    refine .inl ⟨⟨false, rfl⟩, ?_⟩
    obtain here | here := here <;> simp [spentMs, pauseMs, unchargedMs, here] <;> omega
  | ready here =>
    refine .inr ⟨left, ?_⟩
    simp [spentMs, pauseMs, unchargedMs, here, waitMs]
  | readAgain here =>
    apply leaves_again
    · simp [spentMs, pauseMs, unchargedMs, here]
    · simp [spentMs, pauseMs, unchargedMs, here]
      omega
  | readIdle here =>
    apply leaves_charge
    simp [spentMs, pauseMs, unchargedMs, here]
  | readFail here =>
    refine .inl ⟨⟨false, rfl⟩, ?_⟩
    simp [spentMs, pauseMs, unchargedMs, here]
    omega
  | readEnd here =>
    refine .inl ⟨⟨false, rfl⟩, ?_⟩
    simp [spentMs, pauseMs, unchargedMs, here]
    omega
  | data chunk here =>
    have whole : r.remaining - r.waitMs = r.remaining - r.spentMs -
        r.pauseMs (.read (.data chunk)) + r.unchargedMs (.read (.data chunk)) := by
      simp [spentMs, pauseMs, unchargedMs, here]
    unfold onChunk
    split
    · exact .inl ⟨⟨_, rfl⟩, by omega⟩
    · exact .inl ⟨⟨_, rfl⟩, by omega⟩
    · exact leaves_charge whole

/-- An uncharged wait is not negative. -/
theorem unchargedMs_nonneg (left : 0 < r.remaining) (obs : Obs) : 0 ≤ r.unchargedMs obs := by
  have wait : 0 ≤ r.waitMs := by
    unfold waitMs stepMs
    split <;> omega
  unfold unchargedMs
  split <;> omega

end Reader

namespace Timed

variable {t next : Timed} {event : Obs × Nat} {reopenDelayMs start : Int}

/-- Where the job is, the time and what it may still wait are within the due time `due`. -/
def Within (due now : Int) : JobPc → Prop
  | .entry => True
  | .opening remainingMs => 0 ≤ remainingMs ∧ now + remainingMs * nsPerMs ≤ due
  | .reading reader => 0 < reader.remaining ∧
      now + (reader.remaining - reader.spentMs) * nsPerMs ≤ due
  | .closed _ _ => now ≤ due
  | .decoding _ _ => now ≤ due
  | _ => now ≤ due + Job.retryMs * nsPerMs

/-- The job keeps its deadline, up to the time lost. -/
structure Keeps (start : Int) (t : Timed) : Prop where
  /-- Time is not gained. -/
  nonneg : 0 ≤ t.lost
  /-- Until the deadline is computed, all time is lost. -/
  early : t.job.pc = .entry → t.now ≤ start + t.lost ∧ start ≤ t.now
  /-- The deadline is later than it should be only by time lost. -/
  dated : t.job.pc ≠ .entry → start + t.job.timeoutMs * nsPerMs ≤ t.job.deadline ∧
    t.job.deadline ≤ start + t.job.timeoutMs * nsPerMs + t.lost
  /-- The job is within its time. -/
  within : Within (start + max 0 t.job.timeoutMs * nsPerMs + t.lost) t.now t.job.pc
  /-- A job that has timed out has waited long enough. -/
  expired : t.job.pc = .storing .timeout → start + t.job.timeoutMs * nsPerMs ≤ t.now

/-- A step of the job with its time. -/
theorem step_iff : t.step reopenDelayMs event = some next ↔
    event.1.shows (t.now + event.2) = true ∧ t.job.next event.1 = some next.job ∧
      next.now = t.now + event.2 ∧
      next.lost = t.lost + max 0 (event.2 - t.job.pauseMs reopenDelayMs event.1 * nsPerMs) +
        t.job.unchargedMs event.1 * nsPerMs := by
  obtain ⟨job, now, lost⟩ := next
  unfold step
  split
  · rename_i shows
    rw [Option.map_eq_some_iff]
    simp only [shows, true_and, Timed.mk.injEq]
    constructor
    · rintro ⟨other, moved, rfl, rfl, rfl⟩
      exact ⟨moved, rfl, rfl⟩
    · rintro ⟨moved, rfl, rfl⟩
      exact ⟨job, moved, rfl, rfl, rfl⟩
  · rename_i hidden
    simp [hidden]

/-- A step that leaves the deadline alone keeps it, if the job is still within its time. -/
theorem Keeps.stay (keeps : Keeps start t) (begun : t.job.pc ≠ .entry)
    (deadline : next.job.deadline = t.job.deadline) (timeout : next.job.timeoutMs = t.job.timeoutMs)
    (onward : next.job.pc ≠ .entry) (grown : t.lost ≤ next.lost)
    (within : Within (start + max 0 t.job.timeoutMs * nsPerMs + next.lost) next.now next.job.pc)
    (expired : next.job.pc = .storing .timeout → start + t.job.timeoutMs * nsPerMs ≤ next.now) :
    Keeps start next := by
  have nonneg := keeps.nonneg
  have dated := keeps.dated begun
  refine ⟨by omega, fun entry => absurd entry onward, fun _ => ?_, by rwa [timeout],
    by rwa [timeout]⟩
  rw [deadline, timeout]
  omega

/-- Wherever the job is, it is late by 20 ms at most. -/
theorem within_late {due now : Int} {pc : JobPc} (begun : pc ≠ .entry)
    (within : Within due now pc) : now ≤ due + Job.retryMs * nsPerMs := by
  simp only [Job.retryMs, nsPerMs]
  cases pc with
  | entry => exact absurd rfl begun
  | opening remainingMs =>
    obtain ⟨nonneg, bound⟩ := within
    unfold nsPerMs at bound
    omega
  | reading reader =>
    obtain ⟨positive, bound⟩ := within
    have wait := reader.waitMs_le
    have spent : reader.spentMs ≤ reader.remaining := by
      unfold Reader.spentMs
      split <;> omega
    unfold nsPerMs at bound
    omega
  | closed got enc =>
    have bound : now ≤ due := within
    omega
  | decoding got enc =>
    have bound : now ≤ due := within
    omega
  | _ => exact within

/-- A step without a wait to a point where only the 20 ms count. -/
theorem Keeps.quick {spent : Nat} (keeps : Keeps start t) (begun : t.job.pc ≠ .entry)
    (deadline : next.job.deadline = t.job.deadline) (timeout : next.job.timeoutMs = t.job.timeoutMs)
    (onward : next.job.pc ≠ .entry) (now : next.now = t.now + spent)
    (lost : next.lost = t.lost + max 0 (spent - 0 * nsPerMs) + 0 * nsPerMs)
    (loose : ∀ {due now : Int}, now ≤ due + Job.retryMs * nsPerMs → Within due now next.job.pc)
    (expired : next.job.pc = .storing .timeout → t.job.deadline ≤ next.now) :
    Keeps start next := by
  have late := within_late begun keeps.within
  have dated := keeps.dated begun
  rw [Int.zero_mul, Int.sub_zero, Int.add_zero] at lost
  refine keeps.stay begun deadline timeout onward (by omega) (loose ?_) fun storing => ?_
  · omega
  · have passed := expired storing
    omega

/-- A call that returns or goes on with what is left keeps the job within its time. -/
theorem within_ofReader {due now left : Int} {r : Reader} (leaves : r.Leaves left)
    (room : now + left * nsPerMs ≤ due) : Within due now (.ofReader r) := by
  unfold JobPc.ofReader
  unfold nsPerMs at room
  split
  · rename_i got returned
    obtain ⟨-, nonneg⟩ | ⟨positive, bound⟩ := leaves
    · show now ≤ due
      omega
    · have unspent : r.spentMs = 0 := by simp [Reader.spentMs, returned]
      show now ≤ due
      omega
  · rename_i inside
    obtain ⟨⟨got, returned⟩, -⟩ | ⟨positive, bound⟩ := leaves
    · exact absurd returned (inside got)
    · refine ⟨positive, ?_⟩
      unfold nsPerMs
      omega

/-- A step into or inside a call. -/
theorem Keeps.call {r : Reader} {left : Int} (keeps : Keeps start t) (begun : t.job.pc ≠ .entry)
    (job : next.job = { t.job with pc := .ofReader r }) (grown : t.lost ≤ next.lost)
    (leaves : r.Leaves left)
    (room : next.now + left * nsPerMs ≤ start + max 0 t.job.timeoutMs * nsPerMs + next.lost) :
    Keeps start next := by
  have pc : next.job.pc = .ofReader r := by rw [job]
  refine keeps.stay begun (by rw [job]) (by rw [job]) ?_ grown ?_ fun storing => ?_
  · rw [pc]
    unfold JobPc.ofReader
    split <;> simp
  · rw [pc]
    exact within_ofReader leaves room
  · rw [pc] at storing
    exact absurd storing (Job.ofReader_ne_storing _ _)

/-- The sleep after a failed `open` is no longer than what is left. -/
theorem sleepMs_le {remainingMs : Int} (nonneg : 0 ≤ remainingMs) :
    Job.sleepMs reopenDelayMs remainingMs ≤ remainingMs := by
  unfold Job.sleepMs
  dsimp only
  split <;> split <;> omega

/-- Every step of a job keeps its deadline, up to the time lost. -/
theorem Keeps.step (keeps : Keeps start t)
    (taken : t.step reopenDelayMs event = some next) : Keeps start next := by
  obtain ⟨shows, moved, now, lost⟩ := step_iff.mp taken
  obtain ⟨effect, move⟩ := Job.next_move moved
  obtain ⟨job, time, loss⟩ := next
  obtain ⟨obs, spent⟩ := event
  have before := keeps.within
  dsimp only at shows now lost move
  cases move with
  | date reading here =>
    obtain ⟨upper, lower⟩ := keeps.early here
    have past := keeps.nonneg
    simp only [Obs.shows, decide_eq_true_eq] at shows
    simp only [Job.pauseMs, Job.unchargedMs, here, Int.zero_mul, Int.add_zero, Int.sub_zero] at lost
    refine ⟨by dsimp only; omega, by simp, fun _ => by dsimp only; omega, ?_, by simp⟩
    simp only [Within, Job.retryMs, nsPerMs]
    omega
  | proceed here | leave here | abandon here | store here | clear here | finish here =>
    simp only [Job.pauseMs, Job.unchargedMs, here] at lost
    exact keeps.quick (by simp [here]) rfl rfl (by simp) now lost id (by simp)
  | expire reading here late =>
    simp only [Obs.shows, decide_eq_true_eq] at shows
    simp only [Job.pauseMs, Job.unchargedMs, here] at lost
    exact keeps.quick (by simp [here]) rfl rfl (by simp) now lost id fun _ => by dsimp only; omega
  | budget reading here early =>
    have dated := keeps.dated (by simp [here])
    simp only [Obs.shows, decide_eq_true_eq] at shows
    simp only [Job.pauseMs, Job.unchargedMs, here, Int.zero_mul, Int.add_zero, Int.sub_zero] at lost
    refine keeps.stay (by simp [here]) rfl rfl (by simp) (by dsimp only; omega) ?_ (by simp)
    simp only [Within, nsPerMs] at dated ⊢
    omega
  | @enter remainingMs here =>
    rw [here] at before
    simp only [Job.pauseMs, Job.unchargedMs, here, Int.zero_mul, Int.add_zero, Int.sub_zero] at lost
    refine keeps.call (by simp [here]) rfl (by dsimp only; omega)
      (Reader.leaves_again rfl before.1) ?_
    have bound := before.2
    dsimp only
    omega
  | @retry remainingMs here =>
    rw [here] at before
    obtain ⟨some_, bound⟩ := before
    have sleep : Job.sleepMs reopenDelayMs remainingMs ≤ remainingMs := sleepMs_le some_
    simp only [Job.pauseMs, Job.unchargedMs, here, Int.zero_mul, Int.add_zero] at lost
    refine keeps.stay (by simp [here]) rfl rfl (by simp) (by dsimp only; omega) ?_ (by simp)
    simp only [Within, Job.retryMs, nsPerMs] at bound lost ⊢
    omega
  | @read obs reader after here stepped =>
    rw [here] at before
    obtain ⟨some_, bound⟩ := before
    have free := reader.unchargedMs_nonneg some_ obs
    simp only [Job.pauseMs, Job.unchargedMs, here, nsPerMs] at lost bound
    refine keeps.call (by simp [here]) rfl (by dsimp only; omega)
      (Reader.leaves_step some_ stepped) ?_
    simp only [nsPerMs]
    omega
  | close here =>
    rw [here] at before
    have bound : t.now ≤ _ := before
    simp only [Job.pauseMs, Job.unchargedMs, here, Int.zero_mul, Int.add_zero, Int.sub_zero] at lost
    refine keeps.stay (by simp [here]) rfl rfl (by simp) (by dsimp only; omega) ?_ (by simp)
    show time ≤ start + max 0 t.job.timeoutMs * nsPerMs + loss
    omega
  | @test got enc here =>
    obtain same | ⟨payload, -, same⟩ := Job.judge_cases got enc
    · -- the pause of 20 ms begins within the time
      rw [here] at before
      have bound : t.now ≤ _ := before
      simp only [Job.pauseMs, Job.unchargedMs, here, same, if_true, Int.zero_mul,
        Int.add_zero] at lost
      refine keeps.stay (by simp [here]) rfl rfl (by simp [same]) (by dsimp only; omega) ?_
        (by simp [same])
      dsimp only
      rw [same]
      show time ≤ _
      omega
    · simp only [Job.pauseMs, Job.unchargedMs, here, same, reduceCtorEq, if_false] at lost
      refine keeps.quick (by simp [here]) rfl rfl (by simp [same]) now lost ?_ (by simp [same])
      dsimp only
      rw [same]
      exact id

/-- A job that keeps its deadline has not gained an uncharged wait. -/
theorem Keeps.unchargedMs_nonneg (keeps : Keeps start t) (obs : Obs) :
    0 ≤ t.job.unchargedMs obs := by
  have within := keeps.within
  unfold Job.unchargedMs
  split
  · rename_i reader here
    rw [here] at within
    exact reader.unchargedMs_nonneg within.1 obs
  · omega

/-- The timeout of a job does not change. -/
theorem timeout_step (taken : t.step reopenDelayMs event = some next) :
    next.job.timeoutMs = t.job.timeoutMs := by
  obtain ⟨-, moved, -⟩ := step_iff.mp taken
  obtain ⟨effect, move⟩ := Job.next_move moved
  obtain ⟨obs, spent⟩ := event
  obtain ⟨job, now, lost⟩ := next
  dsimp only at move
  cases move <;> rfl

/-- A job that begins has lost no time. -/
theorem keeps_start (id : String) (timeoutMs start : Int) :
    Keeps start ⟨{ id, timeoutMs }, start, 0⟩ :=
  ⟨by simp, by simp, by simp, trivial, by simp⟩

/-- In every run a job keeps its deadline. -/
theorem keeps {id : String} {timeoutMs : Int} {events : List (Obs × Nat)}
    (reached : Transition.run (Timed.step reopenDelayMs) ⟨{ id, timeoutMs }, start, 0⟩ events =
      some t) : Keeps start t ∧ t.job.timeoutMs = timeoutMs := by
  refine Transition.run_stable (fun t : Timed => Keeps start t ∧ t.job.timeoutMs = timeoutMs)
    ?_ ?_ reached
  · rintro state event after ⟨keeps, same⟩ taken
    exact ⟨keeps.step taken, (timeout_step taken).trans same⟩
  · exact ⟨keeps_start id timeoutMs start, rfl⟩

/-- A job that keeps its deadline is late by no more than 20 ms and the time lost. -/
theorem Keeps.late (keeps : Keeps start t) :
    t.now ≤ start + (max 0 t.job.timeoutMs + 20) * nsPerMs + t.lost := by
  by_cases entry : t.job.pc = .entry
  · have early := (keeps.early entry).1
    unfold nsPerMs
    omega
  · have late := within_late entry keeps.within
    simp only [Job.retryMs, nsPerMs] at late ⊢
    omega

/-- A job keeps its deadline. At every point of every run, no more than `timeout_ms` and 20 ms and
the time lost have passed since its start, whatever its device does, however often it is reopened
and whatever `REOPEN_DELAY_MS` is; a negative `timeout_ms` counts as 0. And it times out no earlier
than `timeout_ms` after its start. -/
theorem job_keeps_deadline (reopenDelayMs : Int) (id : String) (timeoutMs start : Int)
    (events : List (Obs × Nat)) (t : Timed)
    (reached : Transition.run (Timed.step reopenDelayMs) ⟨{ id, timeoutMs }, start, 0⟩ events =
      some t) :
    t.now ≤ start + (max 0 timeoutMs + 20) * nsPerMs + t.lost ∧
      (t.job.pc = .storing .timeout → start + timeoutMs * nsPerMs ≤ t.now) := by
  obtain ⟨keeps, rfl⟩ := keeps reached
  exact ⟨keeps.late, keeps.expired⟩

/-- A job of 60 ms whose device stays silent: two polls use up its budget, and the pause of 20 ms
begins at the deadline. -/
def silentDevice : List (Obs × Nat) :=
  [(.clock 0, 0), (.running true, 0), (.clock 0, 0), (.opened true, 0), (.running true, 0),
    (.poll .timeout, 50000000), (.running true, 0), (.running true, 0),
    (.poll .timeout, 10000000), (.running true, 0), (.running true, 0), (.tau, 20000000),
    (.running true, 0), (.clock 80000000, 0)]

/-- The job times out as late as a job can that loses no time. -/
theorem silentDevice_late : ∃ t,
    Transition.run (Timed.step 1000) ⟨{ id := "", timeoutMs := 60 }, 0, 0⟩ silentDevice = some t ∧
    t.job.pc = .storing .timeout ∧ t.now = 0 + (60 + 20) * nsPerMs + t.lost ∧
    t.now ≤ 0 + (max 0 60 + 20) * nsPerMs + t.lost ∧ 0 + 60 * nsPerMs ≤ t.now := by
  have ends : (Transition.run (Timed.step 1000) ⟨{ id := "", timeoutMs := 60 }, 0, 0⟩
      silentDevice).map (fun t => (t.job.pc, t.now, t.lost)) =
      some (.storing .timeout, 80000000, 0) := by decide +kernel
  obtain ⟨t, reached, same⟩ := Option.map_eq_some_iff.mp ends
  simp only [Prod.mk.injEq] at same
  obtain ⟨stands, now, lost⟩ := same
  obtain ⟨late, early⟩ := job_keeps_deadline 1000 "" 60 0 silentDevice t reached
  exact ⟨t, reached, stands, by rw [now, lost]; rfl, late, early stands⟩

end Timed

end QrEdgeGateway
