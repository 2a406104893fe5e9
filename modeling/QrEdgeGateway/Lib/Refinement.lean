import QrEdgeGateway.Lib.Transition

/-!
# Refinement of partial step functions

A fine system refines a coarse one if its states have a view in the coarse one and each of its
steps, from a state of an invariant, means a list of coarse events that lead from view to view:
none where the step is invisible, one where it is the step that counts. Every run of the fine
system then means a run of the coarse one, so what holds after every coarse run holds of the
view after every fine run. A component of a system is the case in which each step of the whole is
one step of the component or none.
-/

namespace Transition

variable {σ ε τ δ : Type}

/-- The fine system refines the coarse one. -/
structure Refinement (fine : σ → ε → Option σ) (coarse : τ → δ → Option τ) where
  /-- What a fine state looks like. -/
  view : σ → τ
  /-- What a fine step means. -/
  means : σ → ε → List δ
  /-- What the fine system keeps. -/
  invariant : σ → Prop
  /-- Every fine step keeps it. -/
  kept : ∀ {state event next}, invariant state → fine state event = some next → invariant next
  /-- Every fine step is what it means. -/
  matched : ∀ {state event next}, invariant state → fine state event = some next →
    run coarse (view state) (means state event) = some (view next)

namespace Refinement

variable {fine : σ → ε → Option σ} {coarse : τ → δ → Option τ}

/-- What a fine run means. -/
def meaning (refinement : Refinement fine coarse) (state : σ) : List ε → List δ
  | [] => []
  | event :: rest =>
    refinement.means state event ++
      ((fine state event).map fun next => refinement.meaning next rest).getD []

variable {refinement : Refinement fine coarse} {state final : σ} {events : List ε}

/-- A fine run means a coarse run between the views of its ends. -/
theorem run_meaning (start : refinement.invariant state)
    (reached : run fine state events = some final) :
    run coarse (refinement.view state) (refinement.meaning state events) =
      some (refinement.view final) := by
  induction events generalizing state with
  | nil =>
    obtain rfl := Option.some.inj reached
    rfl
  | cons event rest ih =>
    obtain ⟨next, taken, onward⟩ := run_cons.mp reached
    have first := refinement.matched start taken
    have later := ih (refinement.kept start taken) onward
    simp only [meaning, taken, Option.map_some, Option.getD_some]
    exact run_trans first later

end Refinement

/-- What a component goes through in a run of the whole is a run of its own. -/
theorem run_component {whole : σ → ε → Option σ} {part : τ → δ → Option τ} {state final : σ}
    {events : List ε} (view : σ → τ)
    (moves : ∀ {state event next}, whole state event = some next →
      view next = view state ∨ ∃ own, part (view state) own = some (view next))
    (reached : run whole state events = some final) :
    ∃ own, run part (view state) own = some (view final) := by
  induction events generalizing state with
  | nil =>
    obtain rfl := Option.some.inj reached
    exact ⟨[], rfl⟩
  | cons event rest ih =>
    obtain ⟨next, taken, onward⟩ := run_cons.mp reached
    obtain ⟨later, ran⟩ := ih onward
    obtain same | ⟨own, moved⟩ := moves taken
    · rw [same] at ran
      exact ⟨later, ran⟩
    · exact ⟨own :: later, run_cons.mpr ⟨_, moved, ran⟩⟩

end Transition
