import Mathlib.Logic.Basic

/-!
# Runs and their histories

A system takes one step for each event, or cannot take it.  A history is the
list of the events so far, the oldest first.  What a state has to do with the
history that led to it is shown one event at a time, also where that needs the
events to meet a condition in the states in which they happen.
-/

namespace History

variable {σ ε : Type*}

/-- The state after a list of events, if they can happen in this order. -/
def run? (step : σ → ε → Option σ) : σ → List ε → Option σ
  | state, [] => some state
  | state, event :: events => (step state event).bind fun next => run? step next events

/-- Every event meets the condition in the state in which it happens. -/
def Meets (step : σ → ε → Option σ) (ok : σ → ε → Prop) : σ → List ε → Prop
  | _, [] => True
  | state, event :: events =>
      ok state event ∧ ∀ next ∈ step state event, Meets step ok next events

instance decidableMeets (step : σ → ε → Option σ) (ok : σ → ε → Prop)
    [∀ state event, Decidable (ok state event)] :
    ∀ state events, Decidable (Meets step ok state events)
  | _, [] => isTrue trivial
  | state, event :: events =>
      haveI := decidableMeets step ok
      haveI : Decidable (∀ next ∈ step state event, Meets step ok next events) :=
        match step state event with
        | none => isTrue nofun
        | some next =>
            decidable_of_iff (Meets step ok next events)
              ⟨fun rest _ at_ => Option.some.inj at_ ▸ rest, fun rest => rest next rfl⟩
      inferInstanceAs (Decidable (_ ∧ _))

variable {step : σ → ε → Option σ} {ok : σ → ε → Prop}

/-- A relation between the history and the state holds after every run whose
events meet the condition, once a single event preserves it. -/
theorem run_invariant (inv : List ε → σ → Prop)
    (each : ∀ past state event next, inv past state → ok state event →
      step state event = some next → inv (past ++ [event]) next)
    {past events : List ε} {start state : σ} (initially : inv past start)
    (ran : run? step start events = some state) (meets : Meets step ok start events) :
    inv (past ++ events) state := by
  induction events generalizing past start with
  | nil =>
      cases ran
      rw [List.append_nil]
      exact initially
  | cons event events ih =>
      obtain ⟨next, stepTo, rest⟩ := Option.bind_eq_some_iff.mp ran
      have preserved := each past start event next initially meets.1 stepTo
      rw [List.append_cons]
      exact ih preserved rest (meets.2 next stepTo)

end History
