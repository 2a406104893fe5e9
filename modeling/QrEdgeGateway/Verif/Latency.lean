import QrEdgeGateway.Verif.SerialCore

/-!
# How long a task waits

The worker serves every task in three steps: it takes it, executes it and sets its promise. How
many steps it has made is therefore written in the state, and so is how many it has still to make
before a task that is pushed now is answered. Neither later submissions nor `stop()` calls change
that number.
-/

namespace QrEdgeGateway

/-- Steps the worker has still to make for the task it holds. -/
def LoopPc.work {π : Type} : LoopPc π → Nat
  | .taken _ => 2
  | .executed _ _ => 1
  | _ => 0

/-- Steps the worker has made for the task it holds. -/
def LoopPc.spent {π : Type} : LoopPc π → Nat
  | .taken _ => 1
  | .executed _ _ => 2
  | _ => 0

namespace Dispatcher

section

variable {π : Type} {d next : Dispatcher π} {act : LoopAct}

/-- Steps the worker has still to make for the tasks pushed so far. -/
def work (d : Dispatcher π) : Nat := 3 * d.queue.length + d.loop.work

/-- Steps the worker has made for tasks so far. -/
def served (d : Dispatcher π) : Nat := 3 * d.promises.length + d.loop.spent

/-- A pushed task is three steps of work. -/
theorem work_push (d : Dispatcher π) (task : Task π) : (d.push task).work = d.work + 3 := by
  simp only [work, push, List.length_append, List.length_singleton]
  omega

/-- Every task pushed is three steps, made or to be made. -/
theorem work_add_served (d : Dispatcher π) : d.work + d.served = 3 * d.tags.length := by
  unfold work served tags
  cases d.loop <;> simp [LoopPc.work, LoopPc.spent, LoopPc.held] <;> omega

/-- A step of the worker other than its return is one step of its work. -/
theorem work_loopStep (moved : d.loopStep act = some next) :
    (act ≠ .exit ∧ next.work + 1 = d.work ∧ next.served = d.served + 1) ∨
      (act = .exit ∧ d.work = 0 ∧ next.work = 0 ∧ next.served = d.served) := by
  obtain ⟨task, rest, rfl, waiting, queued, rfl⟩ | ⟨rfl, waiting, queued, -, rfl⟩ |
    ⟨task, rfl, taken, rfl⟩ | ⟨task, response, rfl, executed, rfl⟩ := loopStep_cases moved
  · refine .inl ⟨by simp, ?_, ?_⟩
    · simp only [work, waiting, queued, LoopPc.work, List.length_cons]
      omega
    · simp [served, waiting, LoopPc.spent]
  · exact .inr ⟨rfl, by simp [work, waiting, queued, LoopPc.work], by
      simp [work, queued, LoopPc.work], by simp [served, waiting, LoopPc.spent]⟩
  · exact .inl ⟨by simp, by simp [work, taken, LoopPc.work], by
      simp [served, taken, LoopPc.spent]⟩
  · refine .inl ⟨by simp, by simp [work, executed, LoopPc.work], ?_⟩
    simp only [served, executed, LoopPc.spent, List.length_append, List.length_singleton]
    omega

/-- While there is work and the loop runs, the worker can make a step of it. -/
theorem exists_loopStep (busy : d.work ≠ 0) (running : d.loop ≠ .exited) :
    ∃ act next, act ≠ .exit ∧ d.loopStep act = some next := by
  cases here : d.loop with
  | waiting =>
    cases queued : d.queue with
    | nil => simp [work, here, queued, LoopPc.work] at busy
    | cons task rest => exact ⟨.take, _, by simp, by simp only [loopStep, here, queued]; rfl⟩
  | taken task => exact ⟨.execute, _, by simp, by simp only [loopStep, here]; rfl⟩
  | executed task response => exact ⟨.setValue, _, by simp, by simp only [loopStep, here]; rfl⟩
  | exited => exact absurd here running

/-- Without work the queue is empty and the worker holds nothing. -/
theorem unanswered_of_idle (idle : d.work = 0) : d.unanswered = [] := by
  unfold work at idle
  have empty : d.queue = [] := List.eq_nil_of_length_eq_zero (by omega)
  cases here : d.loop <;> simp_all [unanswered, LoopPc.work, LoopPc.held]

end

variable {d next : Dispatcher Promise}

/-- The call is a step of the worker's work. -/
def serves : Call → Bool
  | .loop act => act ≠ .exit
  | _ => false

/-- Only the worker's steps are work done. -/
theorem served_step {call : Call} (moved : d.step call = some next) :
    next.served = d.served + (serves call).toNat := by
  cases call with
  | submit owner submission =>
    cases moved
    simp [served, push, serves]
  | stopCall =>
    cases moved
    simp [served, serves]
  | stop i act =>
    obtain ⟨-, -, loop, promises⟩ := stopStep_frame moved
    simp [served, loop, promises, serves]
  | loop act =>
    obtain ⟨other, -, served⟩ | ⟨rfl, -, -, served⟩ := work_loopStep moved
    · simp [served, serves, other]
    · simp [served, serves]

/-- The work done along a run is the worker's steps in it. -/
theorem served_run {calls : List Call}
    (reached : Transition.run Dispatcher.step d calls = some next) :
    next.served = d.served + (calls.filter serves).length := by
  induction calls generalizing d with
  | nil =>
    obtain rfl := Option.some.inj reached
    rfl
  | cons call rest ih =>
    obtain ⟨middle, moved, onward⟩ := Transition.run_cons.mp reached
    have first := served_step moved
    have later := ih onward
    cases its : serves call with
    | false => simp_all
    | true =>
      simp_all
      omega

/-- Promises are set in the order of the pushes. -/
theorem future_isSome_iff {pushed executed : List (Task Promise)}
    (ledger : Ledger d pushed executed) {place : Nat} {task : Task Promise}
    (pushedAt : pushed[place]? = some task) :
    (d.future task.prom).isSome = true ↔ place < d.promises.length := by
  have keys : d.promises.map Prod.fst <+: pushed.map Task.prom := by
    have answers := ledger.answers_prefix.map Prod.fst
    rwa [List.map_fst_zip (by simp)] at answers
  have its : (pushed.map Task.prom)[place]? = some task.prom := by simp [pushedAt]
  constructor
  · intro ready
    obtain ⟨response, set⟩ := Option.isSome_iff_exists.mp ready
    obtain ⟨other, inside, same⟩ := List.getElem_of_mem (mem_of_future set)
    have bound : other < (d.promises.map Prod.fst).length := by simpa using inside
    have found : (pushed.map Task.prom)[other]? = some task.prom := by
      rw [List.prefix_iff_getElem?.mp keys other bound, List.getElem_map, same]
    -- no two pushed tasks share a promise
    obtain rfl : other = place := by
      have here : other < (pushed.map Task.prom).length :=
        (List.getElem?_eq_some_iff.mp found).1
      exact (List.getElem?_inj here ledger.distinct).mp (found.trans its.symm)
    exact inside
  · intro inside
    have bound : place < (d.promises.map Prod.fst).length := by simpa using inside
    have same := List.prefix_iff_getElem?.mp keys place bound
    rw [its, List.getElem_map, Option.some.injEq] at same
    have distinct : d.tags.Nodup := ledger.tags_eq ▸ ledger.distinct
    have set : (task.prom, d.promises[place].2) ∈ d.promises := by
      rw [same]
      exact List.getElem_mem inside
    rw [future_of_mem distinct set]
    rfl

/-- A task waits for exactly the work that was there before it. After any run, let a task be
pushed and anything happen, further submissions and `stop()` calls included: the task's promise
is set if and only if the worker has made as many steps as there was work when the task was
pushed, and three for the task itself. Until then the worker, unless it has returned, can make
one. -/
theorem answered_iff_served (before calls : List Call) (owner : Nat) (submission : Submission)
    (d final : Dispatcher Promise)
    (reached : Transition.run Dispatcher.step {} before = some d)
    (onward : Transition.run Dispatcher.step d (.submit owner submission :: calls) = some final) :
    ((final.future ⟨owner, d.tags.length⟩).isSome = true ↔
      d.work + 3 ≤ (calls.filter serves).length) ∧
    ((final.future ⟨owner, d.tags.length⟩).isSome = false → final.loop ≠ .exited →
      ∃ act next, act ≠ .exit ∧ final.loopStep act = some next) := by
  have sofar := ledger_run reached
  have ledger := sofar.run onward
  have place : d.tags.length = (({} : Dispatcher Promise).pushedAlong before).length := by
    rw [sofar.tags_eq, List.length_map]
  have pushedAt : (({} : Dispatcher Promise).pushedAlong before ++
      d.pushedAlong (.submit owner submission :: calls))[d.tags.length]? =
        some (submission.task ⟨owner, d.tags.length⟩) := by
    rw [place, List.getElem?_append_right (Nat.le_refl _), Nat.sub_self]
    simp [pushedAlong, submitted, place]
  have answered := future_isSome_iff ledger pushedAt
  rw [Submission.task_prom] at answered
  have done := served_run onward
  have free : serves (.submit owner submission) = false := rfl
  rw [List.filter_cons_of_neg (by simp [free])] at done
  have whole := d.work_add_served
  have spent : final.served = 3 * final.promises.length + final.loop.spent := rfl
  have little : final.loop.spent ≤ 2 := by cases final.loop <;> simp [LoopPc.spent]
  constructor
  · rw [answered]
    omega
  · intro unset running
    have behind : ¬ d.tags.length < final.promises.length := by
      rw [← answered]
      simpa using unset
    have known : d.tags.length < final.tags.length := by
      rw [ledger.tags_eq, List.length_map]
      exact (List.getElem?_eq_some_iff.mp pushedAt).1
    have left := final.work_add_served
    exact exists_loopStep (by omega) running

/-- A task is pushed behind another that the worker has just taken. -/
def behindRun : List Call := [.submit 0 (.sync "init"), .loop .take]

/-- Two more steps for the first task and three for the second, among other calls. -/
def behindRest : List Call :=
  [.loop .execute, .submit 2 (.sync "ping"), .loop .setValue, .loop .take, .stopCall,
    .loop .execute, .loop .setValue]

/-- The second task is answered behind the five steps. -/
theorem behindRun_answered : ∃ d final, Transition.run Dispatcher.step {} behindRun = some d ∧
    Transition.run Dispatcher.step d (.submit 1 .stop :: behindRest) = some final ∧
    d.work = 2 ∧ (final.future ⟨1, 1⟩).isSome = true := by
  refine ⟨_, _, rfl, rfl, by decide, ?_⟩
  exact (answered_iff_served behindRun behindRest 1 .stop _ _ rfl rfl).1.mpr (by decide)

end Dispatcher

end QrEdgeGateway
