import Mathlib.Data.List.Basic
import QrEdgeGateway.Core
import QrEdgeGateway.Lib.Transition

/-!
# Reading one frame

`read_cobs_frame` polls the serial device and collects bytes up to a `0x00`, within a time
budget that every round charges by its `wait_ms`. The call is a machine over its own control
points: every load of the shared flag, every `poll` and every `read` is one step whose result
the environment chooses. `continue` and the end of the loop body both lead back to the loop
condition, which is evaluated at once when the budget is gone and is a step of its own
otherwise, since it then loads the flag.
-/

namespace QrEdgeGateway

/-- What a successful `read` of the 256-byte buffer delivers. -/
structure Chunk where
  /-- The bytes read. -/
  bytes : Bytes
  /-- A return value of zero is end of file, not a chunk. -/
  nonempty : bytes ≠ []
  /-- `sizeof(buf)`. -/
  fits : bytes.length ≤ 256
  deriving DecidableEq, Repr

/-- `poll` as the loop distinguishes it. -/
inductive PollResult where
  /-- `rc < 0` with `EINTR`. -/
  | interrupted
  /-- `rc < 0` with any other error. -/
  | failed
  /-- `rc == 0`. -/
  | timeout
  /-- `POLLERR`, `POLLHUP` or `POLLNVAL`. -/
  | error
  /-- `POLLIN`. -/
  | readable
  /-- `rc > 0` with none of those bits. -/
  | idle
  deriving DecidableEq, Repr

/-- `read` as the loop distinguishes it. -/
inductive ReadResult where
  /-- `n < 0` with `EINTR`. -/
  | interrupted
  /-- `n < 0` with `EAGAIN` or `EWOULDBLOCK`. -/
  | again
  /-- `n < 0` with any other error. -/
  | failed
  /-- `n == 0`. -/
  | eof
  /-- `n > 0`. -/
  | data (chunk : Chunk)
  deriving DecidableEq, Repr

/-- What one step of a job worker observes of its environment. -/
inductive Obs where
  /-- A load of `running_`. -/
  | running (flag : Bool)
  /-- `steady_clock::now()`, in nanoseconds. -/
  | clock (now : Int)
  /-- Whether `open` returned a descriptor. -/
  | opened (ok : Bool)
  /-- A `poll`. -/
  | poll (result : PollResult)
  /-- A `read`. -/
  | read (result : ReadResult)
  /-- A step that observes nothing. -/
  | tau
  deriving DecidableEq, Repr

/-- How the byte loop over one chunk ends. -/
inductive Scan where
  /-- A `0x00` was met; the frame before it. -/
  | delimiter (frame : Bytes)
  /-- The frame outgrew the limit. -/
  | tooLarge (frame : Bytes)
  /-- The chunk is used up. -/
  | consumed (frame : Bytes)
  deriving DecidableEq, Repr

/-- Largest encoded frame kept. -/
def maxFrame : Nat := 4096

/-- The byte loop of `read_cobs_frame`: bytes after a delimiter are not looked at. -/
def scanChunk (frame : Bytes) : Bytes → Scan
  | [] => .consumed frame
  | byte :: rest =>
    if byte = 0x00 then .delimiter frame
    else
      let frame := frame ++ [byte]
      if frame.length > maxFrame then .tooLarge frame else scanChunk frame rest

/-- Control point of one `read_cobs_frame` call. -/
inductive ReaderPc where
  /-- At the loop condition, with budget left: the flag is loaded. -/
  | head
  /-- At `poll`. -/
  | polling
  /-- After `poll`: the flag is loaded again. -/
  | polled (result : PollResult)
  /-- At `read`. -/
  | reading
  /-- The call has returned. -/
  | returned (got : Bool)
  deriving DecidableEq, Repr

/-- The locals of one `read_cobs_frame` call. -/
structure Reader where
  /-- Budget left, in milliseconds. -/
  remaining : Int
  /-- `encoded_frame`. -/
  frame : Bytes := []
  /-- Where the call is. -/
  pc : ReaderPc := .head
  deriving DecidableEq, Repr

namespace Reader

/-- `step_ms`. -/
def stepMs : Int := 50

/-- `wait_ms` of the current round. -/
def waitMs (r : Reader) : Int := if r.remaining < stepMs then r.remaining else stepMs

/-- The loop condition: without budget the call returns false, the flag unread. -/
def again (r : Reader) : Reader :=
  if 0 < r.remaining then { r with pc := .head } else { r with pc := .returned false }

/-- `remaining -= wait_ms`, then the loop condition. -/
def charge (r : Reader) : Reader := again { r with remaining := r.remaining - r.waitMs }

/-- `return got`. -/
def ret (r : Reader) (got : Bool) : Reader := { r with pc := .returned got }

/-- The call `read_cobs_frame(fd, timeout_ms, running_, enc)`. -/
def enter (timeoutMs : Int) : Reader := again { remaining := timeoutMs }

/-- The rest of a round after a delivered chunk. -/
def onChunk (r : Reader) (chunk : Chunk) : Reader :=
  match scanChunk r.frame chunk.bytes with
  | .delimiter frame => ret { r with frame } (!frame.isEmpty)
  | .tooLarge frame => ret { r with frame } false
  | .consumed frame => charge { r with frame }

/-- One step of the call. -/
def step (r : Reader) : Obs → Option Reader
  | .running flag =>
    match r.pc with
    | .head => some (if flag then { r with pc := .polling } else r.ret false)
    | .polled result =>
      some (if !flag then r.ret false
        else match result with
          | .interrupted => r.again
          | .failed => r.ret false
          | .timeout => r.charge
          | .error => r.ret false
          | .readable => { r with pc := .reading }
          | .idle => r.charge)
    | _ => none
  | .poll result =>
    match r.pc with
    | .polling => some { r with pc := .polled result }
    | _ => none
  | .read result =>
    match r.pc with
    | .reading =>
      some (match result with
        | .interrupted => r.again
        | .again => r.charge
        | .failed => r.ret false
        | .eof => r.ret false
        | .data chunk => r.onChunk chunk)
    | _ => none
  | _ => none

/-- What one step of the call can be. Every guard of the step function is a premise. -/
inductive Move (r : Reader) : Obs → Reader → Prop where
  /-- The flag is cleared. -/
  | quit (here : r.pc = .head ∨ ∃ result, r.pc = .polled result) :
      Move r (.running false) (r.ret false)
  /-- A round begins. -/
  | proceed (here : r.pc = .head) : Move r (.running true) { r with pc := .polling }
  /-- `poll` returns. -/
  | poll (result : PollResult) (here : r.pc = .polling) :
      Move r (.poll result) { r with pc := .polled result }
  /-- `poll` was interrupted. -/
  | pollAgain (here : r.pc = .polled .interrupted) : Move r (.running true) r.again
  /-- `poll` found nothing to read. -/
  | pollIdle (here : r.pc = .polled .timeout ∨ r.pc = .polled .idle) :
      Move r (.running true) r.charge
  /-- `poll` reported an error. -/
  | pollFail (here : r.pc = .polled .failed ∨ r.pc = .polled .error) :
      Move r (.running true) (r.ret false)
  /-- `poll` found the device readable. -/
  | ready (here : r.pc = .polled .readable) : Move r (.running true) { r with pc := .reading }
  /-- `read` was interrupted. -/
  | readAgain (here : r.pc = .reading) : Move r (.read .interrupted) r.again
  /-- `read` found nothing. -/
  | readIdle (here : r.pc = .reading) : Move r (.read .again) r.charge
  /-- `read` failed. -/
  | readFail (here : r.pc = .reading) : Move r (.read .failed) (r.ret false)
  /-- `read` met the end of the file. -/
  | readEnd (here : r.pc = .reading) : Move r (.read .eof) (r.ret false)
  /-- `read` delivered bytes. -/
  | data (chunk : Chunk) (here : r.pc = .reading) :
      Move r (.read (.data chunk)) (r.onChunk chunk)

/-- Every step of the call is one of the moves. -/
theorem step_move {r next : Reader} {obs : Obs} (moved : r.step obs = some next) :
    Move r obs next := by
  cases obs with
  | running flag =>
    simp only [step] at moved
    split at moved
    · rename_i here
      cases moved
      cases flag with
      | false => exact .quit (.inl here)
      | true => exact .proceed here
    · rename_i result here
      cases moved
      cases flag with
      | false => exact .quit (.inr ⟨result, here⟩)
      | true =>
        cases result with
        | interrupted => exact .pollAgain here
        | failed => exact .pollFail (.inl here)
        | timeout => exact .pollIdle (.inl here)
        | error => exact .pollFail (.inr here)
        | readable => exact .ready here
        | idle => exact .pollIdle (.inr here)
    · contradiction
  | poll result =>
    simp only [step] at moved
    split at moved
    · rename_i here
      cases moved
      exact .poll result here
    · contradiction
  | read result =>
    simp only [step] at moved
    split at moved
    · rename_i here
      cases moved
      cases result with
      | interrupted => exact .readAgain here
      | again => exact .readIdle here
      | failed => exact .readFail here
      | eof => exact .readEnd here
      | data chunk => exact .data chunk here
    · contradiction
  | clock now => contradiction
  | opened ok => contradiction
  | tau => contradiction

end Reader

/-! ## The byte loop -/

/-- A chunk without a delimiter that fits the limit is appended whole. -/
theorem scanChunk_clean (frame bytes : Bytes) (clean : (0 : UInt8) ∉ bytes)
    (fits : frame.length + bytes.length ≤ maxFrame) :
    scanChunk frame bytes = .consumed (frame ++ bytes) := by
  induction bytes generalizing frame with
  | nil => simp [scanChunk]
  | cons byte rest ih =>
    rw [List.mem_cons, not_or] at clean
    rw [List.length_cons] at fits
    have small : ¬ (frame ++ [byte]).length > maxFrame := by
      rw [List.length_append, List.length_singleton]
      omega
    simp only [scanChunk, Ne.symm clean.1, small, if_false]
    rw [ih (frame ++ [byte]) clean.2 (by rw [List.length_append, List.length_singleton]; omega)]
    simp

/-- Up to a delimiter the loop collects the bytes before it and drops those after it. -/
theorem scanChunk_delimiter (frame bytes dropped : Bytes) (clean : (0 : UInt8) ∉ bytes)
    (fits : frame.length + bytes.length ≤ maxFrame) :
    scanChunk frame (bytes ++ 0 :: dropped) = .delimiter (frame ++ bytes) := by
  induction bytes generalizing frame with
  | nil => simp [scanChunk]
  | cons byte rest ih =>
    rw [List.mem_cons, not_or] at clean
    rw [List.length_cons] at fits
    have small : ¬ (frame ++ [byte]).length > maxFrame := by
      rw [List.length_append, List.length_singleton]
      omega
    simp only [List.cons_append, scanChunk, Ne.symm clean.1, small, if_false]
    rw [ih (frame ++ [byte]) clean.2 (by rw [List.length_append, List.length_singleton]; omega)]
    simp

/-- What the loop over one chunk has done, from its result. -/
theorem scanChunk_spec (frame bytes : Bytes) (small : frame.length ≤ maxFrame) :
    match scanChunk frame bytes with
    | .delimiter out => ∃ taken dropped, bytes = taken ++ 0 :: dropped ∧ out = frame ++ taken ∧
        (0 : UInt8) ∉ taken ∧ out.length ≤ maxFrame
    | .tooLarge out => ∃ taken dropped, bytes = taken ++ dropped ∧ out = frame ++ taken ∧
        (0 : UInt8) ∉ taken ∧ out.length = maxFrame + 1
    | .consumed out => out = frame ++ bytes ∧ (0 : UInt8) ∉ bytes ∧ out.length ≤ maxFrame := by
  induction bytes generalizing frame with
  | nil => simpa [scanChunk] using small
  | cons byte rest ih =>
    unfold scanChunk
    by_cases zero : byte = 0
    · rw [if_pos zero]
      exact ⟨[], rest, by simp [zero], by simp, by simp, small⟩
    · rw [if_neg zero]
      have grown : (frame ++ [byte]).length = frame.length + 1 := by simp
      by_cases large : (frame ++ [byte]).length > maxFrame
      · simp only [large, if_true]
        exact ⟨[byte], rest, rfl, rfl, by simpa using Ne.symm zero, by omega⟩
      · simp only [large, if_false]
        have later := ih (frame ++ [byte]) (by omega)
        split at later
        · obtain ⟨taken, dropped, shape, whole, clean, bound⟩ := later
          exact ⟨byte :: taken, dropped, by simp [shape], by simp [whole],
            by simpa [Ne.symm zero] using clean, bound⟩
        · obtain ⟨taken, dropped, shape, whole, clean, bound⟩ := later
          exact ⟨byte :: taken, dropped, by simp [shape], by simp [whole],
            by simpa [Ne.symm zero] using clean, bound⟩
        · obtain ⟨whole, clean, bound⟩ := later
          exact ⟨by simp [whole], by simpa [Ne.symm zero] using clean, bound⟩

example : scanChunk [0x02] [0x41, 0x00, 0x42] = .delimiter [0x02, 0x41] := by decide

end QrEdgeGateway
