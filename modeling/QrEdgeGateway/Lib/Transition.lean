import Mathlib.Data.List.Basic

/-!
# Partial step functions and their runs

A system is a partial step function over a state and an event. A run folds the events in
order and is undefined as soon as one step is. A condition on a run is a predicate of each
state and the event taken there, so a restriction of the schedule is stated without changing
the system. One invariant rule serves every safety argument over such runs.
-/

namespace Transition

variable {σ ε : Type}

/-- Take the events in order; a refused event leaves the run undefined. -/
def run (step : σ → ε → Option σ) (state : σ) : List ε → Option σ
  | [] => some state
  | event :: rest => (step state event).bind fun next => run step next rest

/-- Every event of the run is taken in a state where the condition admits it. -/
def Along (step : σ → ε → Option σ) (condition : σ → ε → Prop) (state : σ) : List ε → Prop
  | [] => True
  | event :: rest =>
    condition state event ∧ ∀ next, step state event = some next → Along step condition next rest

/-- A computable condition can be checked along a given run. -/
def decidableAlong (step : σ → ε → Option σ) (condition : σ → ε → Prop)
    [∀ state event, Decidable (condition state event)] :
    ∀ (state : σ) (events : List ε), Decidable (Along step condition state events)
  | _, [] => .isTrue trivial
  | state, event :: rest =>
    match taken : step state event with
    | none => decidable_of_iff (condition state event) (by simp [Along, taken])
    | some next =>
      have := decidableAlong step condition next rest
      decidable_of_iff (condition state event ∧ Along step condition next rest)
        (by simp [Along, taken])

instance (step : σ → ε → Option σ) (condition : σ → ε → Prop)
    [∀ state event, Decidable (condition state event)] (state : σ) (events : List ε) :
    Decidable (Along step condition state events) := decidableAlong step condition state events

variable {step : σ → ε → Option σ} {condition : σ → ε → Prop} {state middle final : σ}
  {event : ε} {first second : List ε}

/-- A run of no events stays where it is. -/
@[simp] theorem run_nil : run step state [] = some state := rfl

/-- A run of one more event is one step followed by the rest. -/
theorem run_cons : run step state (event :: first) = some final ↔
    ∃ next, step state event = some next ∧ run step next first = some final := by
  simp [run, Option.bind_eq_some_iff]

/-- Runs compose over concatenated events. -/
theorem run_append : run step state (first ++ second) =
    (run step state first).bind fun next => run step next second := by
  induction first generalizing state with
  | nil => rfl
  | cons event rest ih =>
    simp only [List.cons_append, run]
    cases step state event with
    | none => rfl
    | some next => exact ih

/-- Two runs that meet are one run. -/
theorem run_trans (left : run step state first = some middle)
    (right : run step middle second = some final) :
    run step state (first ++ second) = some final := by
  rw [run_append, left]
  exact right

/-- The condition on a concatenated run is the condition on both halves. -/
theorem along_append (left : run step state first = some middle) :
    Along step condition state (first ++ second) ↔
      Along step condition state first ∧ Along step condition middle second := by
  induction first generalizing state with
  | nil =>
    obtain rfl := Option.some.inj left
    simp [Along]
  | cons event rest ih =>
    obtain ⟨next, taken, reached⟩ := run_cons.mp left
    have inner := ih reached
    simp only [List.cons_append, Along, and_assoc]
    constructor
    · rintro ⟨admitted, onward⟩
      obtain ⟨before, after⟩ := inner.mp (onward next taken)
      exact ⟨admitted, fun other same => Option.some.inj (taken ▸ same) ▸ before, after⟩
    · rintro ⟨admitted, before, after⟩
      refine ⟨admitted, fun other same => ?_⟩
      obtain rfl := Option.some.inj (taken ▸ same)
      exact inner.mpr ⟨before _ taken, after⟩

/-- A weaker condition holds along the same run. -/
theorem Along.mono {weaker : σ → ε → Prop}
    (weaken : ∀ state event, condition state event → weaker state event)
    (along : Along step condition state first) : Along step weaker state first := by
  induction first generalizing state with
  | nil => trivial
  | cons event rest ih =>
    exact ⟨weaken _ _ along.1, fun next taken => ih (along.2 next taken)⟩

/-- Two conditions along a run are one. -/
theorem Along.and {other : σ → ε → Prop} (along : Along step condition state first)
    (also : Along step other state first) :
    Along step (fun state event => condition state event ∧ other state event) state first := by
  induction first generalizing state with
  | nil => trivial
  | cons event rest ih =>
    exact ⟨⟨along.1, also.1⟩, fun next taken => ih (along.2 next taken) (also.2 next taken)⟩

/-- The condition that admits every event holds along every run. -/
theorem along_true : Along step (fun _ _ => True) state first := by
  induction first generalizing state with
  | nil => trivial
  | cons event rest ih => exact ⟨trivial, fun next _ => ih⟩

/-- A run that is not admitted throughout takes a first event that is not. -/
theorem exists_violation (reached : run step state first = some final)
    (violated : ¬ Along step condition state first) :
    ∃ before event after middle, first = before ++ event :: after ∧
      run step state before = some middle ∧ ¬ condition middle event := by
  induction first generalizing state with
  | nil => exact absurd trivial violated
  | cons event rest ih =>
    obtain ⟨next, taken, onward⟩ := run_cons.mp reached
    by_cases admitted : condition state event
    · have later : ¬ Along step condition next rest := by
        intro along
        refine violated ⟨admitted, fun other same => ?_⟩
        obtain rfl := Option.some.inj (taken.symm.trans same)
        exact along
      obtain ⟨before, bad, after, middle, rfl, there, refused⟩ := ih onward later
      exact ⟨event :: before, bad, after, middle, rfl, run_cons.mpr ⟨next, taken, there⟩, refused⟩
    · exact ⟨[], event, rest, state, rfl, rfl, admitted⟩

/-- What every admitted step preserves holds at the end of every admitted run. -/
theorem run_invariant (invariant : σ → Prop)
    (preserved : ∀ {state event next}, invariant state → condition state event →
      step state event = some next → invariant next)
    (start : invariant state) (reached : run step state first = some final)
    (along : Along step condition state first) : invariant final := by
  induction first generalizing state with
  | nil =>
    obtain rfl := Option.some.inj reached
    exact start
  | cons event rest ih =>
    obtain ⟨next, taken, onward⟩ := run_cons.mp reached
    exact ih (preserved start along.1 taken) onward (along.2 next taken)

/-- What every step preserves holds at the end of every run. -/
theorem run_stable (invariant : σ → Prop)
    (preserved : ∀ {state event next}, invariant state →
      step state event = some next → invariant next)
    (start : invariant state) (reached : run step state first = some final) :
    invariant final :=
  run_invariant invariant (fun holds _ taken => preserved holds taken) start reached along_true

/-- A condition on the events alone holds along every run of such events. -/
theorem along_of_forall {admits : ε → Prop} (all : ∀ event ∈ first, admits event) :
    Along step (fun _ event => admits event) state first := by
  induction first generalizing state with
  | nil => trivial
  | cons event rest ih =>
    refine ⟨all event (by simp), fun next _ => ih fun other member => ?_⟩
    exact all other (List.mem_cons_of_mem _ member)

/-- What every step of certain events preserves holds at the end of every run of such events. -/
theorem run_among {admits : ε → Prop} (invariant : σ → Prop)
    (preserved : ∀ {state event next}, invariant state → admits event →
      step state event = some next → invariant next)
    (start : invariant state) (reached : run step state first = some final)
    (all : ∀ event ∈ first, admits event) : invariant final :=
  run_invariant invariant preserved start reached (along_of_forall all)

/-- What every admitted step preserves together with the events taken so far holds of a whole
admitted run. -/
theorem run_traced (invariant : List ε → σ → Prop)
    (preserved : ∀ {past state event next}, invariant past state → condition state event →
      step state event = some next → invariant (past ++ [event]) next)
    (start : invariant [] state) (reached : run step state first = some final)
    (along : Along step condition state first) : invariant first final := by
  suffices extend : ∀ past, invariant past state → invariant (past ++ first) final by
    simpa using extend [] start
  intro past held
  clear start
  induction first generalizing state past with
  | nil =>
    obtain rfl := Option.some.inj reached
    simpa using held
  | cons event rest ih =>
    obtain ⟨next, taken, onward⟩ := run_cons.mp reached
    have later := ih onward (along.2 next taken) (past ++ [event])
      (preserved held along.1 taken)
    simpa using later

/-- What every admitted step from a state reached so far preserves holds after a whole admitted
run. -/
theorem run_reachable (invariant : σ → Prop)
    (preserved : ∀ {past middle event next}, run step state past = some middle →
      invariant middle → condition middle event → step middle event = some next →
      invariant next)
    (start : invariant state) (reached : run step state first = some final)
    (along : Along step condition state first) : invariant final := by
  have traced : run step state first = some final ∧ invariant final := by
    refine run_traced (fun past middle => run step state past = some middle ∧ invariant middle)
      ?_ ⟨rfl, start⟩ reached along
    rintro past middle event next ⟨ran, held⟩ admitted taken
    exact ⟨run_trans ran (run_cons.mpr ⟨next, taken, rfl⟩), preserved ran held admitted taken⟩
  exact traced.2

/-- How many events of a run are taken where they count. -/
def tally (step : σ → ε → Option σ) (counts : σ → ε → Bool) (state : σ) : List ε → Nat
  | [] => 0
  | event :: rest =>
    (counts state event).toNat +
      ((step state event).map fun next => tally step counts next rest).getD 0

/-- What every admitted step preserves together with the number counted so far holds of a whole
admitted run. -/
theorem run_tally {counts : σ → ε → Bool} (invariant : σ → Nat → Prop)
    (preserved : ∀ {state event next count}, invariant state count → condition state event →
      step state event = some next → invariant next (count + (counts state event).toNat))
    (start : invariant state 0) (reached : run step state first = some final)
    (along : Along step condition state first) :
    invariant final (tally step counts state first) := by
  suffices extend : ∀ count, invariant state count →
      invariant final (count + tally step counts state first) by
    simpa using extend 0 start
  intro count held
  clear start
  induction first generalizing state count with
  | nil =>
    obtain rfl := Option.some.inj reached
    exact held
  | cons event rest ih =>
    obtain ⟨next, taken, onward⟩ := run_cons.mp reached
    have later := ih onward (along.2 next taken) _ (preserved held along.1 taken)
    simpa [tally, taken, Nat.add_assoc] using later

/-- What an invariant of the admitted steps implies of each of them holds along the run. -/
theorem Along.of_invariant {implied : σ → ε → Prop} (invariant : σ → Prop)
    (preserved : ∀ {state event next}, invariant state → condition state event →
      step state event = some next → invariant next)
    (implies : ∀ {state event}, invariant state → implied state event) (start : invariant state)
    (along : Along step condition state first) : Along step implied state first := by
  induction first generalizing state with
  | nil => trivial
  | cons event rest ih =>
    refine ⟨implies start, fun next taken => ?_⟩
    exact ih (preserved start along.1 taken) (along.2 next taken)

/-- The events lead from one state to the other, each admitted where it is taken. -/
def Admits (step : σ → ε → Option σ) (condition : σ → ε → Prop) (state : σ) (events : List ε)
    (final : σ) : Prop :=
  run step state events = some final ∧ Along step condition state events

namespace Admits

/-- No event is admitted everywhere. -/
theorem nil : Admits step condition state [] state := ⟨rfl, trivial⟩

/-- An admitted step in front of an admitted run. -/
theorem cons (admitted : condition state event) (taken : step state event = some middle)
    (rest : Admits step condition middle first final) :
    Admits step condition state (event :: first) final := by
  refine ⟨run_cons.mpr ⟨middle, taken, rest.1⟩, admitted, fun next same => ?_⟩
  obtain rfl := Option.some.inj (taken.symm.trans same)
  exact rest.2

/-- Two admitted runs that meet are one. -/
theorem trans (left : Admits step condition state first middle)
    (right : Admits step condition middle second final) :
    Admits step condition state (first ++ second) final :=
  ⟨run_trans left.1 right.1, (along_append left.1).mpr ⟨left.2, right.2⟩⟩

end Admits

end Transition
