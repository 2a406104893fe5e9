import QrEdgeGateway.JobRunner

/-!
# Rounds of the reader

One iteration of the loop of `read_cobs_frame` without an error is a round: the flag is loaded,
`poll` returns, the flag is loaded again and, if the device was readable, `read` returns. A
round is a fixed list of observations, and its effect on the call is one function of the call's
locals. Runs of the call are then lists of rounds, and a run of the call is a run of the job
that made it.
-/

namespace QrEdgeGateway

/-- One iteration of the reader's loop without an error. -/
inductive Round where
  /-- `poll` was interrupted. -/
  | pollInterrupted
  /-- `poll` timed out. -/
  | timeout
  /-- `poll` returned none of the tested bits. -/
  | idle
  /-- `read` was interrupted. -/
  | readInterrupted
  /-- `read` found nothing. -/
  | again
  /-- `read` delivered bytes. -/
  | data (chunk : Chunk)
  deriving DecidableEq, Repr

namespace Round

/-- The observations of a round whose flag stays set. -/
def obs : Round → List Obs
  | .pollInterrupted => [.running true, .poll .interrupted, .running true]
  | .timeout => [.running true, .poll .timeout, .running true]
  | .idle => [.running true, .poll .idle, .running true]
  | .readInterrupted => [.running true, .poll .readable, .running true, .read .interrupted]
  | .again => [.running true, .poll .readable, .running true, .read .again]
  | .data chunk => [.running true, .poll .readable, .running true, .read (.data chunk)]

/-- The bytes a round delivers. -/
def bytes : Round → Bytes
  | .data chunk => chunk.bytes
  | _ => []

/-- Rounds the last of which delivers a chunk. -/
def ending (rounds : List Round) (last : Chunk) : List Round := rounds ++ [.data last]

end Round

namespace Reader

/-- The call after one round. -/
def after (r : Reader) : Round → Reader
  | .pollInterrupted => r.again
  | .timeout => r.charge
  | .idle => r.charge
  | .readInterrupted => r.again
  | .again => r.charge
  | .data chunk => r.onChunk chunk

variable {r : Reader} {round : Round}

/-- Where the call is does not matter to what it does with a chunk. -/
theorem onChunk_pc (r : Reader) (pc : ReaderPc) (chunk : Chunk) :
    { r with pc }.onChunk chunk = r.onChunk chunk := by
  unfold onChunk
  dsimp only
  cases scanChunk r.frame chunk.bytes <;> rfl

/-- The observations of a round take the call from its loop condition to the next. -/
theorem run_round (r : Reader) (round : Round) (head : r.pc = .head) :
    Transition.run Reader.step r round.obs = some (r.after round) := by
  cases round with
  | data chunk =>
    simp only [Round.obs, Transition.run, step, head, Option.bind_some, after]
    exact congrArg some (onChunk_pc r .reading chunk)
  | _ => simp [Round.obs, Transition.run, step, head, after, again, charge, waitMs]

/-- The loop condition keeps the frame. -/
@[simp] theorem again_frame (r : Reader) : r.again.frame = r.frame := by
  unfold again
  split <;> rfl

/-- The loop condition keeps the budget. -/
@[simp] theorem again_remaining (r : Reader) : r.again.remaining = r.remaining := by
  unfold again
  split <;> rfl

/-- A charged round keeps the frame. -/
@[simp] theorem charge_frame (r : Reader) : r.charge.frame = r.frame := again_frame _

/-- The loop condition never returns a frame. -/
theorem again_pc (r : Reader) : r.again.pc ≠ .returned true := by
  unfold again
  split <;> simp

/-- With budget left the loop goes on. -/
theorem again_of_pos (left : 0 < r.remaining) : r.again = { r with pc := .head } := by
  simp [again, left]

/-- A round costs at most `step_ms`. -/
theorem charge_eq (r : Reader) : ∃ left : Int, r.remaining - stepMs ≤ left ∧
    r.charge = again { r with remaining := left } := by
  refine ⟨r.remaining - r.waitMs, ?_, rfl⟩
  unfold waitMs
  split <;> omega

/-- A chunk costs at most `step_ms`. -/
theorem onChunk_remaining (r : Reader) (chunk : Chunk) :
    r.remaining - stepMs ≤ (r.onChunk chunk).remaining := by
  have free : r.remaining - stepMs ≤ r.remaining := by
    unfold stepMs
    omega
  unfold onChunk
  split
  · exact free
  · exact free
  · rename_i frame _
    obtain ⟨left, bound, charged⟩ := charge_eq { r with frame }
    rw [charged, again_remaining]
    exact bound

/-- A round without a delimiter appends its bytes and costs at most `step_ms`. -/
theorem after_clean (r : Reader) (round : Round) (clean : (0 : UInt8) ∉ round.bytes)
    (fits : r.frame.length + round.bytes.length ≤ maxFrame) :
    ∃ left : Int, r.remaining - stepMs ≤ left ∧
      r.after round = again { r with remaining := left, frame := r.frame ++ round.bytes } := by
  have free : r.remaining - stepMs ≤ r.remaining := by
    unfold stepMs
    omega
  cases round with
  | data chunk =>
    simp only [after, onChunk, scanChunk_clean r.frame chunk.bytes clean fits, Round.bytes]
    exact charge_eq { r with frame := r.frame ++ chunk.bytes }
  | pollInterrupted => exact ⟨r.remaining, free, by simp [after, Round.bytes]⟩
  | readInterrupted => exact ⟨r.remaining, free, by simp [after, Round.bytes]⟩
  | timeout => simpa [after, Round.bytes] using charge_eq r
  | idle => simpa [after, Round.bytes] using charge_eq r
  | again => simpa [after, Round.bytes] using charge_eq r

/-- A chunk with a delimiter ends the call with the bytes before it; those behind it are lost. -/
theorem onChunk_delimiter {chunk : Chunk} {body dropped : Bytes}
    (shape : chunk.bytes = body ++ 0 :: dropped) (clean : (0 : UInt8) ∉ body)
    (fits : r.frame.length + body.length ≤ maxFrame) :
    r.onChunk chunk =
      { r with frame := r.frame ++ body, pc := .returned (!(r.frame ++ body).isEmpty) } := by
  rw [onChunk, shape, scanChunk_delimiter r.frame body dropped clean fits]
  rfl

/-- A returned call takes no step. -/
theorem step_returned {got : Bool} (returned : r.pc = .returned got) (obs : Obs) :
    r.step obs = none := by
  cases obs <;> simp [step, returned]

/-- Only a chunk changes the frame, and only a chunk can make the call return a frame. -/
theorem step_cases {next : Reader} {obs : Obs} (moved : r.step obs = some next) :
    (∃ chunk, obs = .read (.data chunk) ∧ next = r.onChunk chunk) ∨
    ((∀ chunk, obs ≠ .read (.data chunk)) ∧ next.frame = r.frame ∧
      next.pc ≠ .returned true ∧
      (next.remaining = r.remaining ∨ next.remaining = r.remaining - r.waitMs)) := by
  have spent : r.charge.frame = r.frame ∧ r.charge.pc ≠ .returned true ∧
      (r.charge.remaining = r.remaining ∨ r.charge.remaining = r.remaining - r.waitMs) :=
    ⟨again_frame _, again_pc _, .inr (again_remaining _)⟩
  have kept : r.again.frame = r.frame ∧ r.again.pc ≠ .returned true ∧
      (r.again.remaining = r.remaining ∨ r.again.remaining = r.remaining - r.waitMs) :=
    ⟨again_frame _, again_pc _, .inl (again_remaining _)⟩
  have gone : (r.ret false).frame = r.frame ∧ (r.ret false).pc ≠ .returned true ∧
      ((r.ret false).remaining = r.remaining ∨ (r.ret false).remaining = r.remaining - r.waitMs) :=
    ⟨rfl, by simp [ret], .inl rfl⟩
  cases step_move moved with
  | data chunk here => exact .inl ⟨chunk, rfl, rfl⟩
  | proceed here | ready here => exact .inr ⟨by simp, rfl, by simp, .inl rfl⟩
  | poll result here => exact .inr ⟨by simp, rfl, by simp, .inl rfl⟩
  | pollAgain here | readAgain here => exact .inr ⟨by simp, kept⟩
  | pollIdle here | readIdle here => exact .inr ⟨by simp, spent⟩
  | quit here | pollFail here | readFail here | readEnd here => exact .inr ⟨by simp, gone⟩

end Reader

namespace Job

/-- A call that has not returned is still being made. -/
theorem ofReader_inside {r : Reader} (inside : ∀ got, r.pc ≠ .returned got) :
    JobPc.ofReader r = .reading r := by
  unfold JobPc.ofReader
  split
  · rename_i got returned
    exact absurd returned (inside got)
  · rfl

/-- A job inside the call stays there while the call runs, and leaves it when it returns. -/
theorem run_reading (j : Job) {r last : Reader} {obs : List Obs}
    (inside : ∀ got, r.pc ≠ .returned got)
    (reached : Transition.run Reader.step r obs = some last) :
    Transition.run Job.next { j with pc := .reading r } obs =
      some { j with pc := .ofReader last } := by
  induction obs generalizing r with
  | nil =>
    obtain rfl := Option.some.inj reached
    rw [ofReader_inside inside]
    rfl
  | cons first rest ih =>
    obtain ⟨next, moved, onward⟩ := Transition.run_cons.mp reached
    refine Transition.run_cons.mpr ⟨{ j with pc := .ofReader next }, ?_, ?_⟩
    · cases first <;> simp [Job.next, step, moved]
    · cases rest with
      | nil =>
        obtain rfl := Option.some.inj onward
        rfl
      | cons second rest =>
        -- the call goes on, so it has not returned yet
        have inside' : ∀ got, next.pc ≠ .returned got := by
          intro got returned
          obtain ⟨_, impossible, -⟩ := Transition.run_cons.mp onward
          rw [Reader.step_returned returned] at impossible
          contradiction
        rw [ofReader_inside inside']
        exact ih inside' onward

end Job

/-! ## A device that feeds the job

The device holds a stream of bytes, cut into the chunks that successive reads deliver. What is
not read stays there while the job closes and reopens the port. -/

/-- A job and what its device has still to deliver. -/
structure Fed where
  /-- The job. -/
  job : Job
  /-- The chunks of the reads to come. -/
  pending : List Chunk
  deriving DecidableEq, Repr

/-- The chunk an observation delivers, if any. -/
def Obs.reads : Obs → List Chunk
  | .read (.data chunk) => [chunk]
  | _ => []

/-- Every other observation delivers nothing. -/
theorem Obs.reads_eq_nil {obs : Obs} (other : ∀ chunk, obs ≠ .read (.data chunk)) :
    obs.reads = [] := by
  unfold Obs.reads
  split
  · rename_i chunk
    exact absurd rfl (other chunk)
  · rfl

/-- The bytes of successive chunks. -/
def streamOf (cut : List Chunk) : Bytes := cut.flatMap Chunk.bytes

/-- A read of one byte. -/
def Chunk.single (byte : UInt8) : Chunk := ⟨[byte], by simp, by simp⟩

/-- A stream read byte by byte. -/
def bytewise (s : Bytes) : List Chunk := s.map Chunk.single

/-- Reading byte by byte delivers the stream. -/
@[simp] theorem streamOf_bytewise (s : Bytes) : streamOf (bytewise s) = s := by
  induction s with
  | nil => rfl
  | cons byte rest ih =>
    have more : streamOf (bytewise (byte :: rest)) = byte :: streamOf (bytewise rest) := rfl
    rw [more, ih]

namespace Fed

/-- One step of the job; a read delivers the next chunk. -/
def step (f : Fed) (obs : Obs) : Option Fed :=
  match obs.reads, f.pending with
  | [], pending => (f.job.next obs).map fun job => ⟨job, pending⟩
  | chunk :: _, first :: rest =>
    if first = chunk then (f.job.next obs).map fun job => ⟨job, rest⟩ else none
  | _ :: _, [] => none

/-- A step is a step of the job that takes what it reads from the device. -/
theorem step_iff {f g : Fed} {obs : Obs} : f.step obs = some g ↔
    f.job.next obs = some g.job ∧ f.pending = obs.reads ++ g.pending := by
  obtain ⟨job, pending⟩ := f
  obtain ⟨job', pending'⟩ := g
  by_cases data : ∃ chunk, obs = .read (.data chunk)
  · obtain ⟨chunk, rfl⟩ := data
    cases pending with
    | nil => simp [step, Obs.reads]
    | cons first rest =>
      by_cases same : first = chunk
      · simp [step, Obs.reads, same]
      · simp [step, Obs.reads, same]
  · have nothing : obs.reads = [] := Obs.reads_eq_nil fun chunk same => data ⟨chunk, same⟩
    simp [step, nothing]

/-- A run of the job is a run of the fed job whose device holds just what is read. -/
theorem run_of_job {j k : Job} {obs : List Obs} (rest : List Chunk)
    (reached : Transition.run Job.next j obs = some k) :
    Transition.run Fed.step ⟨j, obs.flatMap Obs.reads ++ rest⟩ obs = some ⟨k, rest⟩ := by
  induction obs generalizing j with
  | nil =>
    obtain rfl := Option.some.inj reached
    rfl
  | cons first more ih =>
    obtain ⟨next, moved, onward⟩ := Transition.run_cons.mp reached
    refine Transition.run_cons.mpr ⟨⟨next, more.flatMap Obs.reads ++ rest⟩, ?_, ih onward⟩
    exact step_iff.mpr ⟨moved, by simp⟩

end Fed

end QrEdgeGateway
