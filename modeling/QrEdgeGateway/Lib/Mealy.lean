import Mathlib.Data.List.Basic
import Mathlib.Data.List.Induction

/-!
# Sequential machines with outputs

A sequential machine answers each input from its state and moves on. This is the meaning a
serialised component is compared with: one state, one input at a time, one answer for each.

A fact about the state is often a fact about the past: something happened and nothing has ended
it since. The last section relates the two, from what one input does to the fact.
-/

namespace Mealy

variable {σ τ ρ : Type} (exec : σ → τ → σ × ρ)

/-- The state after a list of inputs. -/
def final (state : σ) : List τ → σ
  | [] => state
  | input :: rest => final (exec state input).1 rest

/-- The answers to a list of inputs, in order. -/
def outputs (state : σ) : List τ → List ρ
  | [] => []
  | input :: rest => (exec state input).2 :: outputs (exec state input).1 rest

/-- The state after more inputs. -/
theorem final_append (state : σ) (first second : List τ) :
    final exec state (first ++ second) = final exec (final exec state first) second := by
  induction first generalizing state with
  | nil => rfl
  | cons head rest ih => exact ih (exec state head).1

/-- The state after one more input. -/
theorem final_concat (state : σ) (inputs : List τ) (input : τ) :
    final exec state (inputs ++ [input]) = (exec (final exec state inputs) input).1 :=
  final_append exec state inputs [input]

/-- The answers to one more input extend the answers so far. -/
theorem outputs_concat (state : σ) (inputs : List τ) (input : τ) :
    outputs exec state (inputs ++ [input]) =
      outputs exec state inputs ++ [(exec (final exec state inputs) input).2] := by
  induction inputs generalizing state with
  | nil => rfl
  | cons head rest ih =>
    simp only [List.cons_append, outputs, final, ih]

/-- Every input has one answer. -/
@[simp] theorem outputs_length (state : σ) (inputs : List τ) :
    (outputs exec state inputs).length = inputs.length := by
  induction inputs generalizing state with
  | nil => rfl
  | cons head rest ih => simp [outputs, ih]

/-- The answer at a place is the one given in the state that the inputs before it lead to. -/
theorem outputs_get (state : σ) (inputs : List τ) (place : Nat) :
    (outputs exec state inputs)[place]? =
      inputs[place]?.map fun input => (exec (final exec state (inputs.take place)) input).2 := by
  induction inputs generalizing state place with
  | nil => rfl
  | cons head rest ih =>
    cases place with
    | zero => rfl
    | succ place => exact ih (exec state head).1 place

/-! ## Histories -/

/-- Some input happened, in the light of those before it, and none since has ended it. -/
def Since (happens : List τ → τ → Prop) (ends : τ → Prop) (inputs : List τ) : Prop :=
  ∃ before input after, inputs = before ++ input :: after ∧ happens before input ∧
    ∀ later ∈ after, ¬ ends later

variable {exec} {happens : List τ → τ → Prop} {ends : τ → Prop}

/-- Nothing has happened at the beginning. -/
theorem not_since_nil : ¬ Since happens ends [] := by
  rintro ⟨before, input, after, split, -, -⟩
  simp at split

/-- One more input happens itself, or leaves what happened before. -/
theorem since_concat (inputs : List τ) (input : τ) :
    Since happens ends (inputs ++ [input]) ↔
      happens inputs input ∨ Since happens ends inputs ∧ ¬ ends input := by
  constructor
  · rintro ⟨before, first, after, split, happened, quiet⟩
    obtain rfl | ⟨front, last, rfl⟩ := after.eq_nil_or_concat'
    · have front' := List.append_inj_left' split rfl
      have last' := List.singleton_inj.mp (List.append_inj_right' split rfl)
      subst front' last'
      exact .inl happened
    · rw [← List.cons_append, ← List.append_assoc] at split
      have front' := List.append_inj_left' split rfl
      have last' := List.singleton_inj.mp (List.append_inj_right' split rfl)
      subst front' last'
      refine .inr ⟨⟨before, first, front, rfl, happened, fun later member => ?_⟩, ?_⟩
      · exact quiet later (List.mem_append_left _ member)
      · exact quiet input (by simp)
  · rintro (happened | ⟨⟨before, first, after, rfl, happened, quiet⟩, open_⟩)
    · exact ⟨inputs, input, [], rfl, happened, by simp⟩
    · refine ⟨before, first, after ++ [input], by simp, happened, fun later member => ?_⟩
      rcases List.mem_append.mp member with old | new
      · exact quiet later old
      · rw [List.mem_singleton.mp new]
        exact open_

/-- A fact that one input establishes, keeps or ends holds of the state exactly if it was
established and has not been ended since. -/
theorem final_iff_since {start : σ} (fact : σ → Prop) {establishes : σ → τ → Prop}
    (initially : ¬ fact start)
    (stepwise : ∀ state input,
      fact (exec state input).1 ↔ establishes state input ∨ fact state ∧ ¬ ends input)
    (inputs : List τ) :
    fact (final exec start inputs) ↔
      Since (fun before input => establishes (final exec start before) input) ends inputs := by
  induction inputs using List.reverseRecOn with
  | nil => exact iff_of_false initially not_since_nil
  | append_singleton front last ih => rw [final_concat, stepwise, since_concat, ih]

end Mealy
