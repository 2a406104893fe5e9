import QrEdgeGateway.Device
import QrEdgeGateway.Edge
import QrEdgeGateway.Verif.Reading

/-!
# The deployment

`docker-compose.yml` runs the device, the service and the gateway side by side. The entry script
of the service starts `socat` once, which connects to the device and copies the bytes of that one
connection, unchanged and in order, to a raw pseudo-terminal; this is the port the workers open.
Bytes nobody has read stay on the line. The input queue of a terminal may be dropped when the last
descriptor is closed, so bytes may also be lost, but not while a worker has the port open.

The device may serve other clients before and after, such as the health check, so the connection
of the bridge is any one of its connections.
-/

namespace QrEdgeGateway

/-- What a step of the service takes from the line. -/
def Event.reads : Event → List Chunk
  | .job _ obs => obs.reads
  | _ => []

/-- What a step of the two programs takes from the line. -/
def EdgeEvent.reads : EdgeEvent → List Chunk
  | .service event => event.reads
  | _ => []

/-- The worker has the port open. -/
def JobPc.portOpen : JobPc → Bool
  | .reading _ => true
  | _ => false

/-- The three programs and the line between the first two. -/
structure Deployment where
  /-- The device. -/
  device : Device
  /-- The number of the connection that `socat` has. -/
  client : Nat
  /-- How many of its bytes have left the line, read or dropped. -/
  gone : Nat := 0
  /-- The service and the gateway. -/
  edge : Edge := {}

/-- One step of the deployment. -/
inductive DeploymentEvent where
  /-- The device moves. -/
  | device (event : DeviceEvent)
  /-- The service or the gateway moves. -/
  | edge (event : EdgeEvent)
  /-- The next bytes of the line are dropped. -/
  | flush (n : Nat)

namespace Deployment

/-- What the device has sent to the bridge. -/
def sent (d : Deployment) : Bytes := d.device.connections.getD d.client []

/-- What is on the line. -/
def line (d : Deployment) : Bytes := d.sent.drop d.gone

/-- Some worker has the port open. -/
def inUse (d : Deployment) : Bool := d.edge.world.threads.any fun thread => thread.job.pc.portOpen

/-- One step. -/
def step (site : Site) (d : Deployment) : DeploymentEvent → Option Deployment
  | .device event => (d.device.step event).map fun device => { d with device }
  | .edge event =>
    -- a read takes the bytes that are next
    if streamOf event.reads <+: d.line then
      (d.edge.step site event).map fun edge =>
        { d with edge, gone := d.gone + (streamOf event.reads).length }
    else none
  | .flush n =>
    if d.inUse = false ∧ n ≤ d.line.length then some { d with gone := d.gone + n } else none

/-- What one step can be. Every guard of the step function is a premise. -/
inductive Move (site : Site) (d : Deployment) : DeploymentEvent → Deployment → Prop where
  /-- The device moves. -/
  | device {event : DeviceEvent} {device : Device} (moved : d.device.step event = some device) :
      Move site d (.device event) { d with device }
  /-- The service or the gateway moves. -/
  | edge {event : EdgeEvent} {edge : Edge} (there : streamOf event.reads <+: d.line)
      (moved : d.edge.step site event = some edge) :
      Move site d (.edge event)
        { d with edge, gone := d.gone + (streamOf event.reads).length }
  /-- Bytes are lost. -/
  | flush {n : Nat} (unused : d.inUse = false) (there : n ≤ d.line.length) :
      Move site d (.flush n) { d with gone := d.gone + n }

variable {site : Site} {d next : Deployment} {event : DeploymentEvent}

/-- Every step is one of the moves. -/
theorem step_move (taken : d.step site event = some next) : Move site d event next := by
  cases event with
  | device event =>
    obtain ⟨device, moved, rfl⟩ := Option.map_eq_some_iff.mp taken
    exact .device moved
  | edge event =>
    simp only [step] at taken
    split at taken
    · rename_i there
      obtain ⟨edge, moved, rfl⟩ := Option.map_eq_some_iff.mp taken
      exact .edge there moved
    · contradiction
  | flush n =>
    simp only [step] at taken
    split at taken
    · rename_i free
      cases taken
      exact .flush free.1 free.2
    · contradiction

end Deployment

end QrEdgeGateway
