import HdhrEmu.Lib.Interleaving

/-!
# Threads that run out of work

Deadlock is the absence of a step.  To see that the calls under way can always
be brought to an end, every frame is given a weight and the shared state a
load.  A configuration in which some thread is not at rest must offer an
action that makes the total lighter; then some schedule, without any arrival,
leads to a configuration in which every thread is at rest.
-/

namespace Interleaving

variable {σ φ χ : Type*}

/-- The load of the shared state and the weights of all frames. -/
def Config.total (load : σ → Nat) (weight : φ → Nat) (config : Config σ φ) : Nat :=
  load config.shared + tally weight config.frames

/-- What an action leaves and starts is lighter than what it found. -/
def Lighter (load : σ → Nat) (weight : φ → Nat) (shared : σ) (frame : φ)
    (outcome : Outcome σ φ) : Prop :=
  load outcome.shared + (outcome.next.map weight).sum < load shared + weight frame

/-- Some thread has a frame on top that is not at rest. -/
def Config.Working (resting : φ → Bool) (config : Config σ φ) : Prop :=
  ∃ frame rest, frame :: rest ∈ config.threads ∧ resting frame = false

/-- Some thread has an action that makes the configuration lighter. -/
def Machine.GetsLighter (machine : Machine σ φ χ) (load : σ → Nat) (weight : φ → Nat)
    (config : Config σ φ) : Prop :=
  ∃ stack ∈ config.threads, ∃ frame, stack.head? = some frame ∧ ∃ choice outcome,
    machine.act config.shared frame choice = some outcome ∧
      Lighter load weight config.shared frame outcome

/-- The moves of existing threads, as a schedule. -/
def movesOnly (moves : List (Nat × χ)) : List (Event φ χ) :=
  moves.map fun move => .act move.1 move.2

namespace Machine

variable {machine : Machine σ φ χ} {load : σ → Nat} {weight : φ → Nat}

/-- An action that makes things lighter is a step that does. -/
theorem GetsLighter.exists_step {config : Config σ φ}
    (lighter : machine.GetsLighter load weight config) :
    ∃ thread choice next, machine.step Guard.all config (.act thread choice) = some next ∧
      next.total load weight < config.total load weight := by
  obtain ⟨stack, member, frame, top, choice, outcome, acted, less⟩ := lighter
  obtain ⟨rest, rfl⟩ := List.head?_eq_some_iff.mp top
  obtain ⟨thread, found⟩ := List.mem_iff_getElem?.mp member
  have stepTo : machine.step Guard.all config (.act thread choice) =
      some ⟨outcome.shared,
        config.threads.set thread (outcome.frames ++ rest) ++ outcome.spawned⟩ := by
    simp only [step, found, Guard.all, if_true, acted, Option.map_some]
  refine ⟨thread, choice, _, stepTo, ?_⟩
  obtain ⟨acting, others, effect, ⟨rest', found', -⟩, -, acted', shared, before, after⟩ :=
    step_act stepTo
  rw [found] at found'
  cases found'
  rw [acted] at acted'
  cases acted'
  rw [Config.total, Config.total, after, before, tally_cons, tally_add, tally_add, tally_coe,
    tally_coe, shared]
  rw [Lighter, Outcome.next, List.map_append, List.sum_append] at less
  omega

/-- As long as working threads can make every configuration lighter, they can
be run until all of them are at rest. -/
theorem Reachable.drains {start config : Config σ φ} (resting : φ → Bool)
    (goesOn : ∀ config, machine.Reachable Guard.all start config → config.Working resting →
      machine.GetsLighter load weight config)
    (reachable : machine.Reachable Guard.all start config) :
    ∃ moves final, machine.run Guard.all config (movesOnly moves) = some final ∧
      ¬ final.Working resting := by
  generalize size : config.total load weight = n
  induction n using Nat.strongRecOn generalizing config with
  | ind n ih =>
      by_cases working : config.Working resting
      · obtain ⟨thread, choice, next, stepTo, less⟩ := (goesOn config reachable working).exists_step
        obtain ⟨moves, final, ran, rests⟩ := ih _ (size ▸ less) (reachable.step stepTo) rfl
        refine ⟨(thread, choice) :: moves, final, ?_, rests⟩
        simp only [movesOnly, List.map_cons, run, stepTo, Option.bind_some]
        exact ran
      · exact ⟨[], config, rfl, working⟩

end Machine

end Interleaving
