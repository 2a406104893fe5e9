import QrEdgeGateway.Lib.Mealy
import QrEdgeGateway.Verif.SerialCore

/-!
# What a core remembers

`Core` keeps one enumeration, and a client only sees its answers. This module says what the
enumeration remembers of the operations so far: the core is initialised exactly if an `INIT` was
given since the last `STOP`, and runs a job exactly if one was accepted since then and has not
finished. Whether a further job is accepted follows from the two. Behind the dispatcher the
operations are the tasks in the order pushed, so the same law holds of a start that is submitted
beside any others.
-/

namespace QrEdgeGateway

namespace Core

open Mealy Operation

/-- The core after operations from the initial state. -/
abbrev afterAll (operations : List Operation) : Core := final perform ({} : Core) operations

/-- Past its `INIT` and not stopped. -/
def Initialised (core : Core) : Prop := core.st = .init ∨ core.st = .running

/-- A core is initialised by `INIT`, also by one it refuses as busy, until it is stopped. -/
theorem initialised_perform (core : Core) (operation : Operation) :
    (operation.perform core).1.Initialised ↔
      operation.IsInit ∨ core.Initialised ∧ ¬ operation.IsStop := by
  cases operation with
  | handleSyncCommand cmd =>
    have moved := core.handleSyncCommand_state cmd
    by_cases halt : upper cmd = "STOP"
    · simp [Initialised, perform, IsInit, IsStop, moved, halt]
    · by_cases init : upper cmd = "INIT"
      · by_cases busy : core.st = .running <;>
          simp [Initialised, perform, IsInit, moved, init, busy]
      · simp [Initialised, perform, IsInit, IsStop, moved, halt, init]
  | startJob timeoutMs =>
    have moved := core.startJob_state timeoutMs
    by_cases ready : core.st = .init <;>
      simp [Initialised, perform, IsInit, IsStop, moved, ready]
  | stop => simp [Initialised, perform, stop, IsInit, IsStop]
  | finishJob =>
    have moved := core.finishJob_state
    by_cases busy : core.st = .running <;>
      simp [Initialised, perform, IsInit, IsStop, moved, busy]

/-- The operations so far let a job start: an `INIT` since the last stop, and a finish behind every
job accepted since then. -/
def LetsStart (operations : List Operation) : Prop :=
  (∃ before init after, operations = before ++ init :: after ∧ init.IsInit ∧
    ∀ later ∈ after, ¬ later.IsStop) ∧
  ∀ before timeoutMs after, operations = before ++ .startJob timeoutMs :: after →
    ((afterAll before).startJob timeoutMs).2.ok = true →
    (∀ later ∈ after, ¬ later.IsStop) → .finishJob ∈ after

/-- The core is ready for a job exactly if the operations so far let it start. -/
theorem ready_iff_letsStart (operations : List Operation) :
    (afterAll operations).st = .init ↔ LetsStart operations := by
  have fresh : ¬ Initialised {} := by simp [Initialised]
  have idle : ¬ ({} : Core).st = .running := by simp
  have ready := final_iff_since Initialised fresh initialised_perform operations
  have busy := final_iff_since (fun core : Core => core.st = .running) idle running_perform
    operations
  have state : (afterAll operations).st = .init ↔
      (afterAll operations).Initialised ∧ ¬ (afterAll operations).st = .running := by
    cases held : (afterAll operations).st <;> simp [Initialised, held]
  rw [state, ready, busy]
  refine and_congr Iff.rfl ⟨?_, ?_⟩
  · intro unmet before timeoutMs after split accepted quiet
    by_contra unfinished
    refine unmet ⟨before, .startJob timeoutMs, after, split, ⟨⟨timeoutMs, rfl⟩, accepted⟩, ?_⟩
    rintro later member (halts | rfl)
    · exact quiet later member halts
    · exact unfinished member
  · rintro all ⟨before, start, after, split, ⟨⟨timeoutMs, rfl⟩, accepted⟩, quiet⟩
    have finished := all before timeoutMs after split accepted
      fun later member halts => quiet later member (.inl halts)
    exact quiet _ finished (.inr rfl)

/-- Whether a job is accepted is a matter of the past alone, whatever was asked of the core:
an `INIT` since the last stop, and a finish behind every job accepted since then. On the way
every refusal left the state alone and every answer told the state it left. -/
theorem start_accepted_iff (operations : List Operation) (timeoutMs : Int) :
    (((afterAll operations).startJob timeoutMs).2.ok = true ↔
      (∃ before init after, operations = before ++ init :: after ∧ init.IsInit ∧
        ∀ later ∈ after, ¬ later.IsStop) ∧
      ∀ before timeoutMs after, operations = before ++ .startJob timeoutMs :: after →
        ((afterAll before).startJob timeoutMs).2.ok = true →
        (∀ later ∈ after, ¬ later.IsStop) → .finishJob ∈ after) ∧
    ∀ before operation after, operations = before ++ operation :: after →
      ((operation.perform (afterAll before)).2.ok = false →
        afterAll (before ++ [operation]) = afterAll before) ∧
      (operation.perform (afterAll before)).2.state = (afterAll (before ++ [operation])).st := by
  constructor
  · exact (startJob_ok _ _).trans (ready_iff_letsStart operations)
  · rintro before operation after -
    have moved : afterAll (before ++ [operation]) = (operation.perform (afterAll before)).1 :=
      final_concat _ _ _ _
    rw [moved]
    exact ⟨perform_refused, perform_tells _ _⟩

-- a refused `INIT` in between is no obstacle
example : ((afterAll [.handleSyncCommand "init", .startJob 10,
    .handleSyncCommand "INIT", .finishJob]).startJob 20).2.ok = true := by
  decide

end Core

/-! ## Behind the dispatcher -/

/-- Over any interleaving of callers, a start's future says that the job is accepted exactly if
the tasks pushed before it let it start. -/
theorem Dispatcher.start_future_iff {calls : List Call} {d : Dispatcher Promise} {place : Nat}
    {task : Task Promise} {response : Response}
    (reached : Transition.run Dispatcher.step {} calls = some d)
    (pushedAt : (({} : Dispatcher Promise).pushedAlong calls)[place]? = some task)
    (start : task.kind = .startJob) (ready : d.future task.prom = some response) :
    response.ok = true ↔
      Core.LetsStart (((({} : Dispatcher Promise).pushedAlong calls).take place).map
        Task.operation) := by
  have told := (ledger_run reached).future_own pushedAt ready
  rw [coreRun, Mealy.outputs_get, List.getElem?_map, pushedAt, Option.map_some, Option.map_some,
    ← List.map_take] at told
  rw [← Core.ready_iff_letsStart, Core.afterAll, ← Option.some.inj told, Task.operation, start]
  exact Core.startJob_ok _ task.timeoutMs

end QrEdgeGateway
