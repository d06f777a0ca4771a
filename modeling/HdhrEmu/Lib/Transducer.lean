import Mathlib.Data.List.Induction

/-!
# Functions that keep a state between their calls

Such a function is called with one input after the other; each call answers
and leaves a state for the next one.  What its answers have in common is shown
with an invariant between the inputs so far and the state, and that two such
functions answer alike with a relation between their states.
-/

namespace Transducer

variable {σ τ ι ο : Type*}

/-- The answers to a list of inputs. -/
def answers (call : σ → ι → σ × ο) : σ → List ι → List ο
  | _, [] => []
  | state, input :: inputs => (call state input).2 :: answers call (call state input).1 inputs

/-- The state after a list of inputs. -/
def after (call : σ → ι → σ × ο) (state : σ) (inputs : List ι) : σ :=
  inputs.foldl (fun state input => (call state input).1) state

theorem length_answers (call : σ → ι → σ × ο) (state : σ) (inputs : List ι) :
    (answers call state inputs).length = inputs.length := by
  induction inputs generalizing state with
  | nil => rfl
  | cons input inputs ih => rw [answers, List.length_cons, List.length_cons, ih]

theorem answers_concat (call : σ → ι → σ × ο) (state : σ) (inputs : List ι) (input : ι) :
    answers call state (inputs ++ [input]) =
      answers call state inputs ++ [(call (after call state inputs) input).2] := by
  induction inputs generalizing state with
  | nil => rfl
  | cons first inputs ih => rw [List.cons_append, answers, answers, ih]; rfl

theorem after_concat (call : σ → ι → σ × ο) (state : σ) (inputs : List ι) (input : ι) :
    after call state (inputs ++ [input]) = (call (after call state inputs) input).1 := by
  rw [after, List.foldl_append]
  rfl

/-- States that are related stay related, and answer alike. -/
theorem answers_eq_of_simulation {call : σ → ι → σ × ο} {call' : τ → ι → τ × ο}
    (related : σ → τ → Prop)
    (step : ∀ state state' input, related state state' →
      related (call state input).1 (call' state' input).1 ∧
        (call state input).2 = (call' state' input).2)
    {state : σ} {state' : τ} (initially : related state state') (inputs : List ι) :
    answers call state inputs = answers call' state' inputs := by
  induction inputs generalizing state state' with
  | nil => rfl
  | cons input inputs ih =>
      obtain ⟨next, alike⟩ := step state state' input initially
      rw [answers, answers, alike, ih next]

section Invariant

variable {call : σ → ι → σ × ο} {start : σ} {inv : List ι → σ → Prop} {ok : List ι → ο → Prop}

/-- A relation between the inputs so far and the state. -/
theorem after_invariant (initially : inv [] start)
    (step : ∀ past state input, inv past state → inv (past ++ [input]) (call state input).1)
    (inputs : List ι) : inv inputs (after call start inputs) := by
  induction inputs using List.reverseRecOn with
  | nil => exact initially
  | append_singleton inputs input ih =>
      rw [after_concat]
      exact step inputs _ input ih

/-- Every answer fits the inputs up to its own. -/
theorem answers_invariant (initially : inv [] start)
    (step : ∀ past state input, inv past state →
      inv (past ++ [input]) (call state input).1 ∧ ok (past ++ [input]) (call state input).2)
    (inputs : List ι) (k : Nat) (answer : ο)
    (answered : (answers call start inputs)[k]? = some answer) :
    ok (inputs.take (k + 1)) answer := by
  induction inputs using List.reverseRecOn with
  | nil => cases answered
  | append_singleton inputs input ih =>
      rw [answers_concat, List.getElem?_append, length_answers] at answered
      split at answered
      · rename_i earlier
        rw [List.take_append_of_le_length earlier]
        exact ih answered
      · rename_i last
        have invariant := after_invariant initially
          (fun past state input holds => (step past state input holds).1) inputs
        obtain ⟨here, is⟩ := List.getElem?_eq_some_iff.mp answered
        rw [List.length_singleton] at here
        have index : k = inputs.length := by omega
        have whole : (inputs ++ [input]).take (k + 1) = inputs ++ [input] := by
          apply List.take_of_length_le
          rw [List.length_append, List.length_singleton]
          omega
        rw [whole, ← is, List.getElem_singleton]
        exact (step inputs _ input invariant).2

end Invariant

end Transducer
