import HdhrEmu.Lib.Trail

/-!
# Following something along a run

What one thread asks for may wait in the shared state and be done by another
thread.  A tracking says where such a thing is after an action, given where it
was before; along a run this determines where it is at the end.  As with
marks, nothing the program does depends on it.
-/

namespace Interleaving

variable {σ φ χ π : Type*}

/-- Where something is after the action of a thread whose top frame is given. -/
abbrev Tracking (σ φ χ π : Type*) := Config σ φ → Nat → φ → χ → π → π

/-- Where it is after an event; arrivals do not move it. -/
def Tracking.follow (tracking : Tracking σ φ χ π) (config : Config σ φ) (place : π) :
    Event φ χ → π
  | .act thread choice =>
      match config.threads[thread]? with
      | some (frame :: _) => tracking config thread frame choice place
      | _ => place
  | .arrive _ => place

namespace Machine

/-- Where it is after a run. -/
def track (machine : Machine σ φ χ) (guard : Guard σ φ χ) (tracking : Tracking σ φ χ π) :
    Config σ φ → List (Event φ χ) → π → π
  | _, [], place => place
  | config, event :: events, place =>
      ((machine.step guard config event).map fun next =>
        machine.track guard tracking next events (tracking.follow config place event)).getD place

variable {machine : Machine σ φ χ} {guard : Guard σ φ χ} {tracking : Tracking σ φ χ π}

/-- What relates the configuration to the place still does so after a run, once
an arrival and the action of a top frame preserve it. -/
theorem track_invariant {start config : Config σ φ} {events : List (Event φ χ)} {place : π}
    (inv : Config σ φ → π → Prop) (ran : machine.run guard start events = some config)
    (initially : inv start place)
    (arrive : ∀ config frame place, inv config place → machine.arrives frame = true →
      inv ⟨config.shared, config.threads ++ [[frame]]⟩ place)
    (act : ∀ (config : Config σ φ) thread frame rest choice outcome place, inv config place →
      config.threads[thread]? = some (frame :: rest) →
      machine.act config.shared frame choice = some outcome →
      inv ⟨outcome.shared, config.threads.set thread (outcome.frames ++ rest) ++ outcome.spawned⟩
        (tracking config thread frame choice place)) :
    inv config (machine.track guard tracking start events place) := by
  induction events generalizing start place with
  | nil =>
      cases ran
      exact initially
  | cons event events ih =>
      obtain ⟨next, stepTo, rest⟩ := Option.bind_eq_some_iff.mp ran
      simp only [track, stepTo, Option.map_some, Option.getD_some]
      apply ih rest
      cases event with
      | act thread choice =>
          obtain ⟨frame, below, outcome, found, -, acted, rfl⟩ := step_act_threads stepTo
          simp only [Tracking.follow, found]
          exact act start thread frame below choice outcome place initially found acted
      | arrive frame =>
          simp only [step] at stepTo
          split at stepTo
          · rename_i arriving
            cases stepTo
            exact arrive start frame place initially arriving
          · cases stepTo

end Machine

end Interleaving
