import QrEdgeGateway.Lib.Transition

/-!
# Coming to rest

Some events are a system's own steps, others come from outside. A rank that every own step
lowers bounds the runs of own steps, whatever the schedule. Where some admitted step lowers the
rank as long as the system is not at rest, it can always come to rest by admitted steps.
-/

namespace Transition

variable {σ ε : Type} {step : σ → ε → Option σ} {state final : σ} {events : List ε}

/-- No step of its own is possible. -/
def Stuck (step : σ → ε → Option σ) (own : ε → Prop) (state : σ) : Prop :=
  ∀ event, own event → step state event = none

/-- A run of own steps that all lower the rank is no longer than the rank it loses. -/
theorem length_le_rank (own : ε → Prop) (invariant : σ → Prop) (rank : σ → Nat)
    (preserved : ∀ {state event next}, invariant state → step state event = some next →
      invariant next)
    (lowers : ∀ {state event next}, invariant state → own event →
      step state event = some next → rank next < rank state)
    (start : invariant state) (reached : run step state events = some final)
    (all : ∀ event ∈ events, own event) : events.length + rank final ≤ rank state := by
  induction events generalizing state with
  | nil =>
    obtain rfl := Option.some.inj reached
    simp
  | cons event rest ih =>
    obtain ⟨next, taken, onward⟩ := run_cons.mp reached
    have less := lowers start (all event (by simp)) taken
    have later := ih (preserved start taken) onward fun other member =>
      all other (List.mem_cons_of_mem _ member)
    rw [List.length_cons]
    omega

/-- A system that can come to rest or lower its rank, as long as it is not at rest, by a step
that a condition admits, can come to rest by such steps. -/
theorem exists_rest (condition : σ → ε → Prop) (invariant rest : σ → Prop) (rank : σ → Nat)
    (preserved : ∀ {state event next}, invariant state → condition state event →
      step state event = some next → invariant next)
    (progress : ∀ {state}, invariant state → ¬ rest state → ∃ event next,
      condition state event ∧ step state event = some next ∧
        (rest next ∨ rank next < rank state))
    (start : invariant state) :
    ∃ events final, Admits step condition state events final ∧ rest final := by
  induction size : rank state using Nat.strongRecOn generalizing state with
  | ind n ih =>
    by_cases rested : rest state
    · exact ⟨[], state, .nil, rested⟩
    · obtain ⟨event, next, admitted, taken, done | less⟩ := progress start rested
      · exact ⟨[event], next, .cons admitted taken .nil, done⟩
      · obtain ⟨events, final, onward, done⟩ :=
          ih (rank next) (size ▸ less) (preserved start admitted taken) rfl
        exact ⟨event :: events, final, .cons admitted taken onward, done⟩

end Transition
