import QrEdgeGateway.Cobs
import QrEdgeGateway.Lib.Transition

/-!
# The emulated device

`fake_serial` accepts one client after the other and sends it frame after frame until a `send`
fails or a signal has set `g_stop`. Every test of `g_stop`, every system call and every round of
the send loop up to `send_all` is one step; a signal may arrive between any two. What has been
sent is kept for each connection. The pauses between the frames carry no data, so `msleep` is one
step.
-/

namespace QrEdgeGateway

/-- The payload `main` falls back to, `QR:123456`. -/
def defaultPayload : Bytes := [0x51, 0x52, 0x3A, 0x31, 0x32, 0x33, 0x34, 0x35, 0x36]

/-- The payload of `main`, from the bytes of `PARCEL_PAYLOAD` in front of the terminating zero. -/
def devicePayload (parcelPayload : Option Bytes) : Bytes :=
  match parcelPayload with
  | none => defaultPayload
  | some [] => defaultPayload
  | some payload => payload

/-- The local buffer `enc`, with whatever it holds when a round begins. -/
structure EncBuffer where
  /-- Its bytes. -/
  bytes : Bytes
  /-- There are `sizeof(enc)` of them. -/
  size : bytes.length = encSize

/-- What `accept` returns. -/
inductive AcceptResult where
  /-- A client. -/
  | client
  /-- `EINTR`. -/
  | interrupted
  /-- Another error. -/
  | failed
  deriving DecidableEq, Repr

/-- What `send` returns. -/
inductive SendResult where
  /-- So many bytes were taken. -/
  | sent (n : Nat)
  /-- `EINTR`. -/
  | interrupted
  /-- Another error. -/
  | failed
  /-- The peer is gone, and `SIGPIPE` ends the process. -/
  | broken
  deriving DecidableEq, Repr

/-- Control point of the device. -/
inductive DevicePc where
  /-- At the condition of the accept loop. -/
  | serving
  /-- Inside `accept`. -/
  | accepting
  /-- At the condition of the send loop. -/
  | emitting
  /-- Inside `send_all`, so many bytes sent. -/
  | sending (frame : Bytes) (off : Nat)
  /-- Inside `msleep`. -/
  | pausing
  /-- At `close(cfd)`. -/
  | closing
  /-- The process has ended. -/
  | ended
  /-- A write left its buffer. -/
  | fault
  deriving DecidableEq, Repr

/-- The device. -/
structure Device where
  /-- `payload`. -/
  payload : Bytes
  /-- `g_stop`. -/
  stop : Bool := false
  /-- Where it is. -/
  pc : DevicePc := .serving
  /-- What was sent on the connections closed so far. -/
  closed : List Bytes := []
  /-- What was sent on the open connection. -/
  current : Bytes := []
  deriving DecidableEq, Repr

/-- One step of the device. -/
inductive DeviceEvent where
  /-- `on_sig` runs. -/
  | signal
  /-- A loop condition, or `close`. -/
  | tau
  /-- `accept` returns. -/
  | accept (result : AcceptResult)
  /-- A round of the send loop begins. -/
  | round (enc : EncBuffer)
  /-- `send` returns. -/
  | send (result : SendResult)
  /-- `msleep` returns. -/
  | wake

/-- The condition of the loop of `send_all`. -/
def sendAll (frame : Bytes) (off : Nat) : DevicePc :=
  if off < frame.length then .sending frame off else .pausing

namespace Device

/-- The device as `main` starts it. -/
def start (parcelPayload : Option Bytes) : Device where
  payload := devicePayload parcelPayload

/-- What was sent, connection by connection. -/
def connections (d : Device) : List Bytes := d.closed ++ [d.current]

/-- The loop of `send_all` when `send` returns. -/
def sendStep (d : Device) (frame : Bytes) (off : Nat) : SendResult → Option Device
  | .sent n =>
    -- `send` takes no more than it is given
    if n > frame.length - off then none
    else if n = 0 then some { d with pc := .closing }
    else some { d with
      current := d.current ++ (frame.drop off).take n, pc := sendAll frame (off + n) }
  | .interrupted => some d
  | .failed => some { d with pc := .closing }
  | .broken => some { d with pc := .ended }

/-- One step of the device. -/
def step (d : Device) (event : DeviceEvent) : Option Device :=
  match d.pc, event with
  | .ended, _ => none
  | .fault, _ => none
  | _, .signal => some { d with stop := true }
  | .serving, .tau => some { d with pc := if d.stop then .ended else .accepting }
  | .accepting, .accept .client => some { d with pc := .emitting }
  | .accepting, .accept .interrupted => some { d with pc := .serving }
  | .accepting, .accept .failed => some { d with pc := .ended }
  | .emitting, .round enc =>
    if d.stop then some { d with pc := .closing }
    else match deviceFrame d.payload enc.bytes with
      | none => some { d with pc := .fault }
      | some none => some { d with pc := .closing }
      | some (some frame) => some { d with pc := sendAll frame 0 }
  | .sending frame off, .send result => d.sendStep frame off result
  | .pausing, .wake => some { d with pc := .emitting }
  | .closing, .tau =>
    some { d with pc := .serving, closed := d.closed ++ [d.current], current := [] }
  | _, _ => none

/-- One step of the device, by what it does. -/
inductive Move (d : Device) : DeviceEvent → Device → Prop where
  /-- A signal is noted. -/
  | signal : Move d .signal { d with stop := true }
  /-- The accept loop ends. -/
  | leave (here : d.pc = .serving) : Move d .tau { d with pc := .ended }
  /-- The accept loop goes on. -/
  | listen (here : d.pc = .serving) : Move d .tau { d with pc := .accepting }
  /-- A client is accepted. -/
  | client (here : d.pc = .accepting) : Move d (.accept .client) { d with pc := .emitting }
  /-- `accept` was interrupted. -/
  | again (here : d.pc = .accepting) :
      Move d (.accept .interrupted) { d with pc := .serving }
  /-- `accept` failed. -/
  | refuse (here : d.pc = .accepting) : Move d (.accept .failed) { d with pc := .ended }
  /-- The send loop ends. -/
  | quit {enc : EncBuffer} (here : d.pc = .emitting) (stopped : d.stop = true) :
      Move d (.round enc) { d with pc := .closing }
  /-- A round writes outside its buffer. -/
  | overrun {enc : EncBuffer} (here : d.pc = .emitting)
      (built : deviceFrame d.payload enc.bytes = none) :
      Move d (.round enc) { d with pc := .fault }
  /-- The payload is refused. -/
  | drop {enc : EncBuffer} (here : d.pc = .emitting)
      (built : deviceFrame d.payload enc.bytes = some none) :
      Move d (.round enc) { d with pc := .closing }
  /-- A frame is handed to `send_all`. -/
  | emit {enc : EncBuffer} {frame : Bytes} (here : d.pc = .emitting)
      (built : deviceFrame d.payload enc.bytes = some (some frame)) :
      Move d (.round enc) { d with pc := sendAll frame 0 }
  /-- Part of a frame is sent. -/
  | sent {frame : Bytes} {off n : Nat} (here : d.pc = .sending frame off)
      (fits : n ≤ frame.length - off) (some_ : n ≠ 0) :
      Move d (.send (.sent n)) { d with
        current := d.current ++ (frame.drop off).take n, pc := sendAll frame (off + n) }
  /-- `send` was interrupted. -/
  | retry {frame : Bytes} {off : Nat} (here : d.pc = .sending frame off) :
      Move d (.send .interrupted) d
  /-- `send` failed, or took nothing. -/
  | fail {frame : Bytes} {off : Nat} {result : SendResult} (here : d.pc = .sending frame off) :
      Move d (.send result) { d with pc := .closing }
  /-- `SIGPIPE` ends the process. -/
  | broken {frame : Bytes} {off : Nat} (here : d.pc = .sending frame off) :
      Move d (.send .broken) { d with pc := .ended }
  /-- The pause ends. -/
  | wake (here : d.pc = .pausing) : Move d .wake { d with pc := .emitting }
  /-- The connection is closed. -/
  | close (here : d.pc = .closing) :
      Move d .tau { d with pc := .serving, closed := d.closed ++ [d.current], current := [] }

variable {d next : Device} {event : DeviceEvent}

/-- A return of `send` is one of the moves. -/
theorem sendStep_move {frame : Bytes} {off : Nat} {result : SendResult}
    (here : d.pc = .sending frame off) (moved : d.sendStep frame off result = some next) :
    Move d (.send result) next := by
  cases result with
  | sent n =>
    simp only [sendStep] at moved
    split at moved
    · contradiction
    · rename_i fits
      split at moved
      · cases moved
        exact .fail here
      · rename_i some_
        cases moved
        exact .sent here (by omega) some_
  | interrupted =>
    cases moved
    exact .retry here
  | failed =>
    cases moved
    exact .fail here
  | broken =>
    cases moved
    exact .broken here

/-- A round of the send loop is one of the moves. -/
theorem round_move {enc : EncBuffer} (here : d.pc = .emitting)
    (taken : d.step (.round enc) = some next) : Move d (.round enc) next := by
  simp only [step, here] at taken
  split at taken
  · rename_i stopped
    cases taken
    exact .quit here stopped
  · split at taken
    · rename_i built
      cases taken
      exact .overrun here built
    · rename_i built
      cases taken
      exact .drop here built
    · rename_i frame built
      cases taken
      exact .emit here built

/-- Every step of the device is one of its moves. -/
theorem step_move (taken : d.step event = some next) : Move d event next := by
  have whole := taken
  unfold step at taken
  split at taken
  · contradiction
  · contradiction
  · cases taken
    exact .signal
  · rename_i here
    cases taken
    split
    · exact .leave here
    · exact .listen here
  · rename_i here
    cases taken
    exact .client here
  · rename_i here
    cases taken
    exact .again here
  · rename_i here
    cases taken
    exact .refuse here
  · rename_i here
    exact round_move here whole
  · rename_i here
    exact sendStep_move here taken
  · rename_i here
    cases taken
    exact .wake here
  · rename_i here
    cases taken
    exact .close here
  · contradiction

end Device

end QrEdgeGateway
