import Mathlib.Logic.Function.Basic
import QrEdgeGateway.Core

/-!
# The job store

`app::JobStore` maps a job identifier to its `JobResult` behind one mutex, so every member
function is one atomic operation. `std::unordered_map::at` throws on a missing key; the
setters and `get` are therefore partial, and a missing key is `none`.
-/

namespace QrEdgeGateway

/-- `app::JobStatus`. -/
inductive JobStatus where
  /-- Waiting for a result. -/
  | pending
  /-- A QR payload was read. -/
  | done
  /-- The deadline passed. -/
  | timeout
  /-- The wait was cancelled. -/
  | cancelled
  deriving DecidableEq, Repr

/-- `job_status_to_string` of the REST adapter. -/
def JobStatus.toString : JobStatus → String
  | .pending => "PENDING"
  | .done => "DONE"
  | .timeout => "TIMEOUT"
  | .cancelled => "CANCELLED"

/-- A terminal status is any but `PENDING`. -/
def JobStatus.Terminal (status : JobStatus) : Prop := status ≠ .pending

instance (status : JobStatus) : Decidable status.Terminal :=
  inferInstanceAs (Decidable (status ≠ .pending))

/-- `app::JobResult`, with the defaults of its member initialisers. -/
structure JobResult where
  /-- Progress of the job. -/
  status : JobStatus := .pending
  /-- Text shown to the client. -/
  message : String := "PENDING"
  /-- Payload of a finished job. -/
  qr : Option Bytes := none
  deriving DecidableEq, Repr

/-- `app::JobStore`: the map `jobs_`. -/
structure JobStore where
  /-- The record of an identifier, when there is one. -/
  jobs : String → Option JobResult := fun _ => none

namespace JobStore

/-- `JobStore::create`: `jobs_[id] = JobResult{}` replaces an old record. -/
def create (store : JobStore) (id : String) : JobStore :=
  ⟨Function.update store.jobs id (some {})⟩

/-- `JobStore::exists`. -/
def contains (store : JobStore) (id : String) : Bool := (store.jobs id).isSome

/-- `JobStore::get`; `none` is the exception of `at`. -/
def get (store : JobStore) (id : String) : Option JobResult := store.jobs id

/-- Assign through the reference `jobs_.at(id)`; `none` is its exception. -/
def modify (store : JobStore) (id : String) (change : JobResult → JobResult) : Option JobStore :=
  (store.jobs id).map fun r => ⟨Function.update store.jobs id (some (change r))⟩

/-- `JobStore::set_done`. -/
def setDone (store : JobStore) (id : String) (qr : Bytes) : Option JobStore :=
  store.modify id fun r => { r with status := .done, message := "OK", qr := some qr }

/-- `JobStore::set_timeout`. -/
def setTimeout (store : JobStore) (id : String) : Option JobStore :=
  store.modify id fun r => { r with status := .timeout, message := "TIMEOUT", qr := none }

/-- `JobStore::set_cancelled`. -/
def setCancelled (store : JobStore) (id : String) : Option JobStore :=
  store.modify id fun r => { r with status := .cancelled, message := "CANCELLED", qr := none }

/-- A created record is the default one, and no other record moves. -/
theorem get_create (store : JobStore) (id other : String) :
    (store.create id).get other = if other = id then some {} else store.get other := by
  simp [get, create, Function.update_apply]

/-- Creation never removes a record. -/
theorem get_create_isSome (store : JobStore) (id other : String)
    (present : (store.get other).isSome) : ((store.create id).get other).isSome := by
  rw [get_create]
  split
  · rfl
  · exact present

end JobStore

/-- What `run_job` stores at its end: one of the three setters. -/
inductive Outcome where
  /-- `set_done` with the payload. -/
  | done (qr : Bytes)
  /-- `set_timeout`. -/
  | timeout
  /-- `set_cancelled`. -/
  | cancelled
  deriving DecidableEq, Repr

/-- The record an outcome leaves: all three fields are overwritten. -/
def Outcome.record : Outcome → JobResult
  | .done qr => ⟨.done, "OK", some qr⟩
  | .timeout => ⟨.timeout, "TIMEOUT", none⟩
  | .cancelled => ⟨.cancelled, "CANCELLED", none⟩

/-- A stored outcome is terminal. -/
theorem Outcome.record_terminal (outcome : Outcome) : outcome.record.status.Terminal := by
  cases outcome <;> simp [record, JobStatus.Terminal]

namespace JobStore

/-- The setter `run_job` calls for an outcome. -/
def write (store : JobStore) (id : String) : Outcome → Option JobStore
  | .done qr => store.setDone id qr
  | .timeout => store.setTimeout id
  | .cancelled => store.setCancelled id

/-- Every setter succeeds exactly on a present record, which it replaces by the outcome's. -/
theorem write_eq (store : JobStore) (id : String) (outcome : Outcome) :
    store.write id outcome = (store.get id).map fun _ =>
      ⟨Function.update store.jobs id (some outcome.record)⟩ := by
  cases outcome <;> rfl

/-- A setter throws exactly on a missing record. -/
theorem write_isSome (store : JobStore) (id : String) (outcome : Outcome) :
    (store.write id outcome).isSome = (store.get id).isSome := by
  rw [write_eq, Option.isSome_map]

/-- After a setter the record is the outcome's, and no other record moves. -/
theorem get_write {store next : JobStore} {id : String} {outcome : Outcome}
    (written : store.write id outcome = some next) (other : String) :
    next.get other = if other = id then some outcome.record else store.get other := by
  rw [write_eq] at written
  obtain ⟨_, _, rfl⟩ := Option.map_eq_some_iff.mp written
  simp [get, Function.update_apply]

end JobStore

end QrEdgeGateway
