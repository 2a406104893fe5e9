import Mathlib.Data.List.OfFn
import QrEdgeGateway.Cobs
import QrEdgeGateway.FrameReader
import QrEdgeGateway.JobStore

/-!
# The job worker

`JobRunner::run_job` is the body of the worker thread: it opens the serial device, reads one
frame, decodes it and looks for the QR prefix, until a result, the deadline or a cleared
`running_`. It is a machine over its control points, one step for each load of `running_`,
clock reading, system call, decoding, store write and submission. Sleeps and the best-effort
termios setup change nothing the job can observe and are not steps.
-/

namespace QrEdgeGateway

/-- The digits of `gen_id`. -/
def hexDigits : List Char := "0123456789abcdef".toList

/-- `gen_id`: eight digits, each from one draw of `std::random_device`. -/
def genId (rd : Fin 8 → UInt32) : String :=
  String.ofList (List.ofFn fun i => hexDigits.getD ((rd i).toNat % 16) '0')

/-- The text `QR:`. -/
def qrPrefix : Bytes := [0x51, 0x52, 0x3A]

/-- `payload.rfind("QR:", 0) == 0`. -/
def startsWithQr (payload : Bytes) : Bool := qrPrefix.isPrefixOf payload

/-- What one frame is worth to the job: its payload when it decodes to a QR text. -/
def acceptFrame (enc : Bytes) : Option Bytes :=
  match cobsDecode enc with
  | some payload => if startsWithQr payload then some payload else none
  | none => none

/-- Nanoseconds in a millisecond. -/
def nsPerMs : Int := 1000000

/-- Control point of `run_job`. -/
inductive JobPc where
  /-- Before the deadline is computed. -/
  | entry
  /-- At `while (running_.load())`. -/
  | head
  /-- At the clock reading of a round. -/
  | clock
  /-- At `open`, with the budget of the round. -/
  | opening (remainingMs : Int)
  /-- Inside `read_cobs_frame`. -/
  | reading (reader : Reader)
  /-- After `close`: `running_` is loaded. -/
  | closed (got : Bool) (enc : Bytes)
  /-- At the tests of the frame. -/
  | decoding (got : Bool) (enc : Bytes)
  /-- At the store write. -/
  | storing (outcome : Outcome)
  /-- At `running_ = false`. -/
  | clearing
  /-- At `submit_finish_job`. -/
  | finishing
  /-- The thread function has returned. -/
  | exited
  deriving DecidableEq, Repr

/-- One `run_job(id, timeout_ms)` call. -/
structure Job where
  /-- `id`. -/
  id : String
  /-- `timeout_ms`. -/
  timeoutMs : Int
  /-- `deadline`, in nanoseconds, once computed. -/
  deadline : Int := 0
  /-- Where the call is. -/
  pc : JobPc := .entry
  deriving DecidableEq, Repr

/-- What a step of the worker does outside its own locals. -/
inductive Effect where
  /-- Nothing. -/
  | silent
  /-- `store_.set_*` on the job's own id. -/
  | write (outcome : Outcome)
  /-- `running_ = false`. -/
  | clearRunning
  /-- `dispatcher_.submit_finish_job()`. -/
  | submitFinish
  deriving DecidableEq, Repr

/-- Leave `read_cobs_frame` when it has returned. -/
def JobPc.ofReader (reader : Reader) : JobPc :=
  match reader.pc with
  | .returned got => .closed got reader.frame
  | _ => .reading reader

/-- The terminal status is stored. -/
def JobPc.written : JobPc → Bool
  | .clearing => true
  | .finishing => true
  | .exited => true
  | _ => false

namespace Job

/-- The tests of a frame: not received, not decodable, or no QR text all lead round the loop. -/
def judge (got : Bool) (enc : Bytes) : JobPc :=
  if !got then .head
  else match acceptFrame enc with
    | some payload => .storing (.done payload)
    | none => .head

/-- One step of `run_job`. -/
def step (j : Job) (obs : Obs) : Option (Job × Effect) :=
  match j.pc, obs with
  | .entry, .clock now =>
    some ({ j with deadline := now + j.timeoutMs * nsPerMs, pc := .head }, .silent)
  | .head, .running flag =>
    some ({ j with pc := if flag then .clock else .storing .cancelled }, .silent)
  | .clock, .clock now =>
    some ({ j with pc := if now ≥ j.deadline then .storing .timeout
                         else .opening ((j.deadline - now) / nsPerMs) }, .silent)
  | .opening remainingMs, .opened ok =>
    some ({ j with pc := if ok then .ofReader (.enter remainingMs) else .head }, .silent)
  | .reading reader, obs =>
    (reader.step obs).map fun next => ({ j with pc := .ofReader next }, .silent)
  | .closed got enc, .running flag =>
    some ({ j with pc := if flag then .decoding got enc else .storing .cancelled }, .silent)
  | .decoding got enc, .tau => some ({ j with pc := judge got enc }, .silent)
  | .storing outcome, .tau => some ({ j with pc := .clearing }, .write outcome)
  | .clearing, .tau => some ({ j with pc := .finishing }, .clearRunning)
  | .finishing, .tau => some ({ j with pc := .exited }, .submitFinish)
  | _, _ => none

/-- The job alone, its effects left to the environment. -/
def next (j : Job) (obs : Obs) : Option Job := (j.step obs).map Prod.fst

/-- A job is live from the start of its thread until its terminal status is stored. -/
def Live (j : Job) : Prop := j.pc.written = false

instance (j : Job) : Decidable j.Live := inferInstanceAs (Decidable (j.pc.written = false))

/-- A job is unfinished until it has submitted its `FINISH_JOB`. -/
def Unfinished (j : Job) : Prop := j.pc ≠ .exited

instance (j : Job) : Decidable j.Unfinished := inferInstanceAs (Decidable (j.pc ≠ .exited))

/-- A job to be stored as done holds a QR text. -/
def Sound (j : Job) : Prop := ∀ qr, j.pc = .storing (.done qr) → startsWithQr qr = true

variable {j k : Job} {obs : Obs} {effect : Effect}

/-- A frame is accepted for the QR text it decodes to. -/
theorem acceptFrame_eq (enc : Bytes) :
    acceptFrame enc = (cobsDecode enc).filter startsWithQr := by
  unfold acceptFrame
  cases cobsDecode enc <;> rfl

/-- An accepted frame decodes to a QR text. -/
theorem acceptFrame_some {enc payload : Bytes} :
    acceptFrame enc = some payload ↔ cobsDecode enc = some payload ∧ startsWithQr payload := by
  rw [acceptFrame_eq, Option.filter_eq_some_iff]

/-- Inside `read_cobs_frame` nothing is written. -/
@[simp] theorem written_ofReader (reader : Reader) : (JobPc.ofReader reader).written = false := by
  unfold JobPc.ofReader
  split <;> rfl

/-- The reader never decides an outcome. -/
theorem ofReader_ne_storing (reader : Reader) (outcome : Outcome) :
    JobPc.ofReader reader ≠ .storing outcome := by
  unfold JobPc.ofReader
  split <;> simp

/-- What one step of a job can be. Every guard of the step function is a premise. -/
inductive Move (j : Job) : Obs → Job → Effect → Prop where
  /-- The deadline is computed. -/
  | date (now : Int) (here : j.pc = .entry) :
      Move j (.clock now) { j with deadline := now + j.timeoutMs * nsPerMs, pc := .head } .silent
  /-- A new round begins. -/
  | proceed (here : j.pc = .head) : Move j (.running true) { j with pc := .clock } .silent
  /-- The loop is left because the flag is cleared. -/
  | leave (here : j.pc = .head) :
      Move j (.running false) { j with pc := .storing .cancelled } .silent
  /-- The deadline has passed. -/
  | expire (now : Int) (here : j.pc = .clock) (late : now ≥ j.deadline) :
      Move j (.clock now) { j with pc := .storing .timeout } .silent
  /-- The budget of the round is computed. -/
  | budget (now : Int) (here : j.pc = .clock) (early : ¬ now ≥ j.deadline) :
      Move j (.clock now) { j with pc := .opening ((j.deadline - now) / nsPerMs) } .silent
  /-- The device is open: `read_cobs_frame` is called. -/
  | enter {remainingMs : Int} (here : j.pc = .opening remainingMs) :
      Move j (.opened true) { j with pc := .ofReader (.enter remainingMs) } .silent
  /-- The device cannot be opened. -/
  | retry {remainingMs : Int} (here : j.pc = .opening remainingMs) :
      Move j (.opened false) { j with pc := .head } .silent
  /-- `read_cobs_frame` moves. -/
  | read {obs : Obs} {reader next : Reader} (here : j.pc = .reading reader)
      (moved : reader.step obs = some next) : Move j obs { j with pc := .ofReader next } .silent
  /-- The frame is to be tested. -/
  | close {got : Bool} {enc : Bytes} (here : j.pc = .closed got enc) :
      Move j (.running true) { j with pc := .decoding got enc } .silent
  /-- The wait was cancelled during the call. -/
  | abandon {got : Bool} {enc : Bytes} (here : j.pc = .closed got enc) :
      Move j (.running false) { j with pc := .storing .cancelled } .silent
  /-- The frame is tested. -/
  | test {got : Bool} {enc : Bytes} (here : j.pc = .decoding got enc) :
      Move j .tau { j with pc := judge got enc } .silent
  /-- The outcome is stored. -/
  | store {outcome : Outcome} (here : j.pc = .storing outcome) :
      Move j .tau { j with pc := .clearing } (.write outcome)
  /-- `running_` is cleared. -/
  | clear (here : j.pc = .clearing) : Move j .tau { j with pc := .finishing } .clearRunning
  /-- `FINISH_JOB` is submitted. -/
  | finish (here : j.pc = .finishing) : Move j .tau { j with pc := .exited } .submitFinish

/-- Every step is one of the moves. -/
theorem step_move (moved : j.step obs = some (k, effect)) : Move j obs k effect := by
  unfold step at moved
  split at moved
  · rename_i now here
    cases moved
    exact .date now here
  · rename_i flag here
    cases moved
    cases flag with
    | false => exact .leave here
    | true => exact .proceed here
  · rename_i now here
    cases moved
    by_cases late : now ≥ j.deadline
    · simpa only [late, if_true] using Move.expire now here late
    · simpa only [late, if_false] using Move.budget now here late
  · rename_i remainingMs ok here
    cases moved
    cases ok with
    | false => exact .retry here
    | true => exact .enter here
  · rename_i reader here
    obtain ⟨next, stepped, same⟩ := Option.map_eq_some_iff.mp moved
    cases same
    exact .read here stepped
  · rename_i got enc flag here
    cases moved
    cases flag with
    | false => exact .abandon here
    | true => exact .close here
  · rename_i got enc here
    cases moved
    exact .test here
  · rename_i outcome here
    cases moved
    exact .store here
  · rename_i here
    cases moved
    exact .clear here
  · rename_i here
    cases moved
    exact .finish here
  · contradiction

/-- Every step of the job alone is one of the moves. -/
theorem next_move (moved : j.next obs = some k) : ∃ effect, Move j obs k effect := by
  obtain ⟨⟨job, effect⟩, stepped, rfl⟩ := Option.map_eq_some_iff.mp moved
  exact ⟨effect, step_move stepped⟩

/-- The tests of a frame store nothing, and only a QR text can be stored next. -/
theorem judge_cases (got : Bool) (enc : Bytes) : judge got enc = .head ∨
    ∃ payload, startsWithQr payload = true ∧ judge got enc = .storing (.done payload) := by
  unfold judge
  cases got with
  | false => exact .inl rfl
  | true =>
    cases accepted : acceptFrame enc with
    | none => exact .inl rfl
    | some payload => exact .inr ⟨payload, (acceptFrame_some.mp accepted).2, rfl⟩

/-- What one step of a job does: it moves among the points before the write, or performs the
next of its three effects in order. The identifier never changes. -/
theorem step_cases (moved : j.step obs = some (k, effect)) :
    k.id = j.id ∧
    ((effect = .silent ∧ j.Live ∧ k.Live ∧ (∀ outcome, j.pc ≠ .storing outcome) ∧ k.Sound) ∨
    (∃ outcome, effect = .write outcome ∧ j.pc = .storing outcome ∧ k.pc = .clearing) ∨
    (effect = .clearRunning ∧ j.pc = .clearing ∧ k.pc = .finishing) ∨
    (effect = .submitFinish ∧ j.pc = .finishing ∧ k.pc = .exited)) := by
  cases step_move moved with
  | store here => exact ⟨rfl, .inr (.inl ⟨_, rfl, here, rfl⟩)⟩
  | clear here => exact ⟨rfl, .inr (.inr (.inl ⟨rfl, here, rfl⟩))⟩
  | finish here => exact ⟨rfl, .inr (.inr (.inr ⟨rfl, here, rfl⟩))⟩
  | @enter remainingMs here =>
    exact ⟨rfl, .inl ⟨rfl, by simp [Live, here, JobPc.written], written_ofReader _,
      by simp [here], fun qr => by simp [ofReader_ne_storing]⟩⟩
  | read here stepped =>
    exact ⟨rfl, .inl ⟨rfl, by simp [Live, here, JobPc.written], written_ofReader _,
      by simp [here], fun qr => by simp [ofReader_ne_storing]⟩⟩
  | @test got enc here =>
    refine ⟨rfl, .inl ⟨rfl, by simp [Live, here, JobPc.written], ?_, by simp [here], ?_⟩⟩
    · obtain same | ⟨payload, -, same⟩ := judge_cases got enc <;> simp [Live, same, JobPc.written]
    · obtain same | ⟨payload, qr, same⟩ := judge_cases got enc
      · simp [Sound, same]
      · simpa [Sound, same] using qr
  | date now here | expire now here | budget now here =>
    exact ⟨rfl, .inl ⟨rfl, by simp [Live, here, JobPc.written], rfl, by simp [here],
      by simp [Sound]⟩⟩
  | _ here =>
    exact ⟨rfl, .inl ⟨rfl, by simp [Live, here, JobPc.written], rfl, by simp [here],
      by simp [Sound]⟩⟩

/-- A step without effect keeps the job live. -/
theorem of_silent (moved : j.step obs = some (k, .silent)) :
    k.id = j.id ∧ j.Live ∧ k.Live ∧ k.Sound := by
  obtain ⟨same, ⟨-, live, onward, -, sound⟩ | ⟨_, other, -⟩ | ⟨other, -⟩ | ⟨other, -⟩⟩ :=
    step_cases moved
  · exact ⟨same, live, onward, sound⟩
  all_goals contradiction

/-- A write stores the outcome the job stands at. -/
theorem of_write {outcome : Outcome} (moved : j.step obs = some (k, .write outcome)) :
    k.id = j.id ∧ j.pc = .storing outcome ∧ k.pc = .clearing := by
  obtain ⟨same, ⟨other, -⟩ | ⟨_, effect, storing, onward⟩ | ⟨other, -⟩ | ⟨other, -⟩⟩ :=
    step_cases moved
  · contradiction
  · cases effect
    exact ⟨same, storing, onward⟩
  all_goals contradiction

/-- `running_` is cleared right after the write. -/
theorem of_clear (moved : j.step obs = some (k, .clearRunning)) :
    k.id = j.id ∧ j.pc = .clearing ∧ k.pc = .finishing := by
  obtain ⟨same, ⟨other, -⟩ | ⟨_, other, -⟩ | ⟨-, here, onward⟩ | ⟨other, -⟩⟩ := step_cases moved
  · contradiction
  · contradiction
  · exact ⟨same, here, onward⟩
  · contradiction

/-- The submission is the last step of a job. -/
theorem of_finish (moved : j.step obs = some (k, .submitFinish)) :
    k.id = j.id ∧ j.pc = .finishing ∧ k.pc = .exited := by
  obtain ⟨same, ⟨other, -⟩ | ⟨_, other, -⟩ | ⟨other, -⟩ | ⟨-, here, onward⟩⟩ := step_cases moved
  · contradiction
  · contradiction
  · contradiction
  · exact ⟨same, here, onward⟩

/-- A returned `run_job` takes no step. -/
theorem unfinished_of_step (moved : j.step obs = some (k, effect)) : j.Unfinished := by
  intro here
  simp [step, here] at moved

/-- A live job is unfinished. -/
theorem Live.unfinished (live : j.Live) : j.Unfinished := by
  intro here
  simp [Live, here, JobPc.written] at live

end Job

/-- The frame of the text `QR:` in one read, for concrete runs. -/
def qrChunk : Chunk := ⟨[0x04, 0x51, 0x52, 0x3A, 0x00], by decide, by decide⟩

example : acceptFrame [0x04, 0x51, 0x52, 0x3A] = some qrPrefix := by decide

end QrEdgeGateway
