import QrEdgeGateway.JobRunner

/-!
# The time a job takes

A step of a job takes time. Some of it the code asks for: the `wait_ms` it hands to `poll`, the
sleep after a failed `open`, the 20 ms after a frame that was no use. What a step takes beyond
that, for scheduling or inside a system call, is time lost. So is a round that was interrupted,
since the reader repeats it without charging its wait. The clock readings of a job are readings
of this time.
-/

namespace QrEdgeGateway

namespace Reader

/-- The time a step of the call may wait, in milliseconds. -/
def pauseMs (r : Reader) : Obs → Int
  | .poll _ => r.waitMs
  | _ => 0

/-- The wait of an interrupted round, which `remaining` is not charged with. -/
def unchargedMs (r : Reader) (obs : Obs) : Int :=
  match r.pc, obs with
  | .polled .interrupted, .running true => r.waitMs
  | .reading, .read .interrupted => r.waitMs
  | _, _ => 0

end Reader

namespace Job

/-- The sleep after a frame that was not received, not decoded or no QR text, in milliseconds. -/
def retryMs : Int := 20

/-- `sleep_ms` after a failed `open`; a sleep that is not positive is left out. -/
def sleepMs (reopenDelayMs remainingMs : Int) : Int :=
  let sleep := if reopenDelayMs < remainingMs then reopenDelayMs else remainingMs
  if sleep > 0 then sleep else 0

/-- The time a step of the job asks for, in milliseconds. -/
def pauseMs (reopenDelayMs : Int) (j : Job) (obs : Obs) : Int :=
  match j.pc, obs with
  | .opening remainingMs, .opened false => sleepMs reopenDelayMs remainingMs
  | .reading reader, obs => reader.pauseMs obs
  | .decoding got enc, .tau => if judge got enc = .head then retryMs else 0
  | _, _ => 0

/-- The wait of an interrupted round. -/
def unchargedMs (j : Job) (obs : Obs) : Int :=
  match j.pc with
  | .reading reader => reader.unchargedMs obs
  | _ => 0

end Job

/-- A job and the time. -/
structure Timed where
  /-- The job. -/
  job : Job
  /-- The time, in nanoseconds. -/
  now : Int
  /-- Time lost so far, in nanoseconds. -/
  lost : Int := 0
  deriving DecidableEq, Repr

/-- The clock shows the time. -/
def Obs.shows (now : Int) : Obs → Bool
  | .clock reading => reading = now
  | _ => true

/-- One step of a job that takes so many nanoseconds. -/
def Timed.step (reopenDelayMs : Int) (t : Timed) (event : Obs × Nat) : Option Timed :=
  if event.1.shows (t.now + event.2) then
    (t.job.next event.1).map fun job =>
      { job, now := t.now + event.2,
        lost := t.lost + max 0 (event.2 - t.job.pauseMs reopenDelayMs event.1 * nsPerMs) +
          t.job.unchargedMs event.1 * nsPerMs }
  else none

end QrEdgeGateway
