import QrEdgeGateway.Gateway
import QrEdgeGateway.Timing

/-!
# One clock for the gateway and the service

The polling call of the gateway and the workers of the service run side by side and read one
clock. Each event comes some time after the one before, whoever makes it, and a thread's step has
taken the time since its own last step. For a worker the part of it that the code did not ask for
is time lost, as for a job alone. Once the call has set its deadline it asks for
`POLL_INTERVAL_SEC` after each answer that told no result; its requests, and rounds of polling
whose answer does not arrive or cannot be read, are time lost.

`steady_clock` of the service and `time.time()` of the gateway are taken to run alike.
-/

namespace QrEdgeGateway

/-- The time of a worker, in nanoseconds. -/
structure WorkerClock where
  /-- When its thread was started. -/
  start : Int
  /-- When it made its last step. -/
  last : Int
  /-- What it has lost. -/
  lost : Int := 0
  deriving DecidableEq, Repr

/-- A step of the worker's job at the time `now`. -/
def WorkerClock.after (clock : WorkerClock) (reopenDelayMs : Int) (job : Job) (obs : Obs)
    (now : Int) : WorkerClock :=
  { clock with
    last := now,
    lost := clock.lost + max 0 (now - clock.last - job.pauseMs reopenDelayMs obs * nsPerMs) +
      job.unchargedMs obs * nsPerMs }

/-- The time of the polling call, in nanoseconds. -/
structure CallClock where
  /-- When it made its last step. -/
  last : Int := 0
  /-- What it has lost since it set its deadline. -/
  lost : Int := 0
  /-- What it has asked for since its last step. -/
  pause : Int := 0
  deriving DecidableEq, Repr

/-- A step of the call at the time `now`, with the pause behind it. -/
def CallClock.after (clock : CallClock) (now pause : Int) : CallClock where
  last := now
  lost := clock.lost + max 0 (now - clock.last - clock.pause)
  pause := pause

namespace BridgeEvent

/-- The clock shows the time. -/
def shows (now : Int) : BridgeEvent → Bool
  | .service (.job _ obs) => obs.shows now
  | .time reading => reading = now
  | _ => true

end BridgeEvent

/-- The service and one call of the gateway under one clock. -/
structure Clocked where
  /-- The two of them. -/
  bridge : Bridge
  /-- The time, in nanoseconds. -/
  now : Int := 0
  /-- The time of each worker. -/
  workers : List WorkerClock := []
  /-- The time of the call. -/
  call : CallClock := {}

namespace Clocked

/-- A call is made while the service starts. -/
def start (id : String) (timeoutMs pollMax : Int) : Clocked where
  bridge := .start id timeoutMs pollMax

/-- The time of the workers after an event at the time `now` that leaves so many of them. -/
def workersAfter (c : Clocked) (reopenDelayMs now : Int) (count : Nat) :
    BridgeEvent → List WorkerClock
  | .service (.job k obs) =>
    match c.bridge.world.threads[k]?, c.workers[k]? with
    | some thread, some clock => c.workers.set k (clock.after reopenDelayMs thread.job obs now)
    | _, _ => c.workers
  | _ => if c.workers.length < count then c.workers ++ [⟨now, now, 0⟩] else c.workers

/-- The time of the call after an event at the time `now`. It is counted from where the deadline
is set, and `time.sleep` follows an answer to a poll. -/
def callAfter (c : Clocked) (pollInterval now : Int) (event : BridgeEvent) : CallClock :=
  match event, c.bridge.call.pc with
  | .service _, _ => c.call
  | .time _, .dating _ => { last := now }
  | .receive true, .waiting _ _ _ => c.call.after now pollInterval
  | _, _ => c.call.after now 0

/-- One event, so many nanoseconds after the last. -/
def step (reopenDelayMs pollInterval : Int) (c : Clocked) (event : BridgeEvent × Nat) :
    Option Clocked :=
  let now := c.now + event.2
  if event.1.shows now then
    (c.bridge.step event.1).map fun bridge =>
      { bridge, now,
        workers := c.workersAfter reopenDelayMs now bridge.world.threads.length event.1,
        call := c.callAfter pollInterval now event.1 }
  else none

end Clocked

end QrEdgeGateway
