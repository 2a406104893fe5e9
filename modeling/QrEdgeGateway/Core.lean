import Mathlib.Logic.Basic

/-!
# The core state machine

`core::Core` keeps one `State` and answers every operation with a `Response`. Commands are
compared after `upper`. Synchronous `START` is refused in favour of the job endpoint; `stop`
is reached both by its own operation and by the `STOP` command.
-/

namespace QrEdgeGateway

/-- Raw bytes, as `std::string` and `std::vector<std::uint8_t>` hold them. -/
abbrev Bytes := List UInt8

/-- `core::State`. -/
inductive State where
  /-- Before `INIT`. -/
  | notInit
  /-- Ready to accept work. -/
  | init
  /-- Running a job. -/
  | running
  /-- Explicitly stopped. -/
  | stopped
  deriving DecidableEq, Repr

/-- `core::to_string`. -/
def State.toString : State → String
  | .notInit => "NOT_INIT"
  | .init => "INIT"
  | .running => "RUNNING"
  | .stopped => "STOPPED"

/-- `core::Response`, with the defaults of its member initialisers. -/
structure Response where
  /-- Suggested HTTP status. -/
  httpStatus : Nat := 200
  /-- Logical success. -/
  ok : Bool := true
  /-- Operation label. -/
  command : String := ""
  /-- State snapshot. -/
  state : State := .notInit
  /-- Outcome text. -/
  message : String := ""
  /-- Job identifier; no core operation sets it. -/
  jobId : Option String := none
  /-- QR payload; no core operation sets it. -/
  qr : Option Bytes := none
  deriving DecidableEq, Repr

/-- `core::Core`: its one member `st_`. -/
structure Core where
  /-- Current state. -/
  st : State := .notInit
  deriving DecidableEq, Repr

namespace Core

/-- `Core::upper`: `std::toupper` on every character, which in the C locale moves only the
ASCII letters. -/
def upper (s : String) : String := String.ofList (s.toList.map Char.toUpper)

/-- `Core::stop`. -/
def stop (_ : Core) : Core × Response :=
  ({ st := .stopped }, { command := "STOP", state := .stopped, message := "OK" })

/-- `Core::handle_sync_command`. -/
def handleSyncCommand (core : Core) (cmd : String) : Core × Response :=
  let r : Response := { command := upper cmd, state := core.st }
  if r.command = "PING" then (core, { r with message := "PONG" })
  else if r.command = "INIT" then
    if core.st = .running then
      (core, { r with ok := false, httpStatus := 409, message := "ERR:BUSY" })
    else ({ st := .init }, { r with state := .init, message := "OK" })
  else if r.command = "STOP" then core.stop
  else if r.command = "START" then
    (core, { r with ok := false, httpStatus := 400, message := "ERR:USE_START_ENDPOINT" })
  else (core, { r with ok := false, httpStatus := 400, message := "ERR:UNKNOWN_CMD" })

/-- `Core::start_job`; the timeout is ignored by the source too. -/
def startJob (core : Core) (_timeoutMs : Int) : Core × Response :=
  let r : Response := { command := "START", state := core.st }
  match core.st with
  | .notInit => (core, { r with ok := false, httpStatus := 409, message := "ERR:NOT_INIT" })
  | .running =>
    (core, { r with ok := false, httpStatus := 409, message := "ERR:ALREADY_RUNNING" })
  | .stopped => (core, { r with ok := false, httpStatus := 409, message := "ERR:STOPPED" })
  | .init =>
    ({ st := .running },
      { r with state := .running, message := "ACCEPTED", httpStatus := 202 })

/-- `Core::finish_job`. -/
def finishJob (core : Core) : Core × Response :=
  let r : Response := { command := "FINISH", state := core.st }
  match core.st with
  | .notInit => (core, { r with ok := false, httpStatus := 409, message := "ERR:NOT_INIT" })
  | .stopped => (core, { r with ok := false, httpStatus := 409, message := "ERR:STOPPED" })
  | .running => ({ st := .init }, { r with state := .init, message := "OK" })
  | .init => (core, { r with message := "OK" })

/-- No letter is lower-case after `toUpper`. -/
theorem toUpper_not_lower (c : Char) :
    ¬ ('a'.val ≤ c.toUpper.val ∧ c.toUpper.val ≤ 'z'.val) := by
  have a : 'a'.val.toNat = 97 := by decide
  have z : 'z'.val.toNat = 122 := by decide
  unfold Char.toUpper
  split
  · rename_i lower
    have low := UInt32.le_iff_toNat_le.mp lower.1
    have high := UInt32.le_iff_toNat_le.mp lower.2
    have value : (c.val + ('A'.val - 'a'.val)).toNat = c.val.toNat - 32 := by
      have gap : ('A'.val - 'a'.val).toNat = 4294967264 := by decide
      rw [UInt32.toNat_add]
      omega
    rw [UInt32.le_iff_toNat_le, UInt32.le_iff_toNat_le, value]
    omega
  · rename_i other
    exact other

/-- A second `upper` changes nothing: the REST adapter and the core may both apply it. -/
theorem upper_upper (s : String) : upper (upper s) = upper s := by
  have twice : ∀ c : Char, c.toUpper.toUpper = c.toUpper := fun c => dif_neg (toUpper_not_lower c)
  simp [upper, twice, Function.comp_def]

/-- A job is accepted exactly in `INIT`. -/
theorem startJob_ok (core : Core) (timeoutMs : Int) :
    (core.startJob timeoutMs).2.ok = true ↔ core.st = .init := by
  unfold startJob
  cases core.st <;> simp

/-- A job start ends in `RUNNING` when it is accepted and changes nothing otherwise. -/
theorem startJob_state (core : Core) (timeoutMs : Int) :
    (core.startJob timeoutMs).1.st = if core.st = .init then .running else core.st := by
  unfold startJob
  cases held : core.st <;> simp [held]

/-- A finished job leaves `RUNNING` for `INIT` and touches no other state. -/
theorem finishJob_state (core : Core) :
    core.finishJob.1.st = if core.st = .running then .init else core.st := by
  unfold finishJob
  cases held : core.st <;> simp [held]

/-- What a synchronous command does to the state: only `STOP` and an `INIT` outside `RUNNING`
move it. -/
theorem handleSyncCommand_state (core : Core) (cmd : String) :
    (core.handleSyncCommand cmd).1.st =
      if upper cmd = "STOP" then .stopped
      else if upper cmd = "INIT" ∧ core.st ≠ .running then .init
      else core.st := by
  unfold handleSyncCommand
  by_cases ping : upper cmd = "PING"
  · simp [ping]
  by_cases init : upper cmd = "INIT"
  · by_cases busy : core.st = .running <;> simp [init, busy]
  by_cases halt : upper cmd = "STOP"
  · simp [halt, stop]
  by_cases start : upper cmd = "START" <;> simp [ping, init, halt, start]

/-- `STOP` is the same by either way. -/
theorem handleSyncCommand_stop (core : Core) {cmd : String} (halt : upper cmd = "STOP") :
    core.handleSyncCommand cmd = core.stop := by
  simp [handleSyncCommand, halt]

/-- A refused command changes nothing. -/
theorem handleSyncCommand_refused {core : Core} {cmd : String}
    (refused : 400 ≤ (core.handleSyncCommand cmd).2.httpStatus) :
    (core.handleSyncCommand cmd).1 = core := by
  unfold handleSyncCommand at refused ⊢
  dsimp only at refused ⊢
  split
  · rfl
  · rename_i ping
    split
    · rename_i init
      split
      · rfl
      · rename_i idle
        simp [init, idle] at refused
    · rename_i init
      split
      · rename_i halt
        simp [halt, stop] at refused
      · split <;> rfl

/-- A job is refused with 409. -/
theorem startJob_refused {core : Core} {timeoutMs : Int}
    (refused : (core.startJob timeoutMs).2.ok = false) :
    (core.startJob timeoutMs).2.httpStatus = 409 := by
  unfold startJob at refused ⊢
  cases held : core.st <;> simp [held] at refused ⊢

/-- A refused job changes nothing. -/
theorem startJob_unchanged {core : Core} {timeoutMs : Int}
    (refused : (core.startJob timeoutMs).2.ok = false) : (core.startJob timeoutMs).1 = core := by
  unfold startJob at refused ⊢
  cases held : core.st <;> simp [held] at refused ⊢

example : (({} : Core).handleSyncCommand "ping").2.message = "PONG" := by decide

end Core

/-! ## Operations -/

/-- The operations of `Core`. -/
inductive Operation where
  /-- `handle_sync_command`. -/
  | handleSyncCommand (cmd : String)
  /-- `start_job`. -/
  | startJob (timeoutMs : Int)
  /-- `stop`. -/
  | stop
  /-- `finish_job`. -/
  | finishJob
  deriving DecidableEq, Repr

namespace Operation

/-- The call of the core. -/
def perform (core : Core) : Operation → Core × Response
  | .handleSyncCommand cmd => core.handleSyncCommand cmd
  | .startJob timeoutMs => core.startJob timeoutMs
  | .stop => core.stop
  | .finishJob => core.finishJob

/-- An `INIT` command, in any letter case. -/
def IsInit (operation : Operation) : Prop :=
  ∃ cmd, operation = .handleSyncCommand cmd ∧ Core.upper cmd = "INIT"

/-- A stop, by the operation or by a `STOP` command in any letter case. -/
def IsStop (operation : Operation) : Prop :=
  operation = .stop ∨ ∃ cmd, operation = .handleSyncCommand cmd ∧ Core.upper cmd = "STOP"

/-- The operation is a job start. -/
def IsStart (operation : Operation) : Prop := ∃ timeoutMs, operation = .startJob timeoutMs

end Operation

namespace Core

open Operation

/-- A job runs from its acceptance until it finishes or the core is stopped. -/
theorem running_perform (core : Core) (operation : Operation) :
    (operation.perform core).1.st = .running ↔
      (operation.IsStart ∧ (operation.perform core).2.ok = true) ∨
      core.st = .running ∧ ¬ (operation.IsStop ∨ operation = .finishJob) := by
  cases operation with
  | handleSyncCommand cmd =>
    have moved := core.handleSyncCommand_state cmd
    by_cases halt : upper cmd = "STOP"
    · simp [perform, IsStart, IsStop, moved, halt]
    · by_cases init : upper cmd = "INIT"
      · by_cases busy : core.st = .running <;>
          simp [perform, IsStart, IsStop, moved, init, busy]
      · simp [perform, IsStart, IsStop, moved, halt, init]
  | startJob timeoutMs =>
    have moved := core.startJob_state timeoutMs
    have accepted := core.startJob_ok timeoutMs
    by_cases ready : core.st = .init <;>
      simp [perform, IsStart, IsStop, moved, accepted, ready]
  | stop => simp [perform, stop, IsStart, IsStop]
  | finishJob =>
    have moved := core.finishJob_state
    by_cases busy : core.st = .running <;>
      simp [perform, IsStart, IsStop, moved, busy]

/-- An operation that answers `ok = false` changes nothing. -/
theorem perform_refused {core : Core} {operation : Operation}
    (refused : (operation.perform core).2.ok = false) : (operation.perform core).1 = core := by
  cases operation with
  | handleSyncCommand cmd =>
    simp only [perform, handleSyncCommand] at refused ⊢
    by_cases ping : upper cmd = "PING"
    · simp [ping] at refused
    by_cases init : upper cmd = "INIT"
    · by_cases busy : core.st = .running
      · simp [init, busy]
      · simp [init, busy] at refused
    by_cases halt : upper cmd = "STOP"
    · simp [halt, stop] at refused
    by_cases start : upper cmd = "START" <;> simp [ping, init, halt, start]
  | startJob timeoutMs =>
    have same : (core.startJob timeoutMs).2.ok = false := refused
    exact startJob_unchanged same
  | stop => cases refused
  | finishJob =>
    unfold perform finishJob at refused ⊢
    cases held : core.st <;> simp [held] at refused ⊢

/-- Every answer tells the state it leaves. -/
theorem perform_tells (core : Core) (operation : Operation) :
    (operation.perform core).2.state = (operation.perform core).1.st := by
  cases operation with
  | handleSyncCommand cmd =>
    unfold perform handleSyncCommand
    dsimp only
    repeat' split
    all_goals rfl
  | startJob timeoutMs =>
    unfold perform startJob
    cases held : core.st <;> simp [held]
  | stop => rfl
  | finishJob =>
    unfold perform finishJob
    cases held : core.st <;> simp [held]

end Core

end QrEdgeGateway
