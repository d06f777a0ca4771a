import HdhrEmu.Lib.Interleaving

/-!
# What a run leaves behind

A statement about what happened between two points of a run needs more than
the configurations at its ends.  A marking says what single actions leave
behind for such statements, and the trail of a run lists these marks in their
order, each with the thread that left it.  Marks are no part of the program:
nothing it does depends on them.
-/

namespace Interleaving

variable {σ φ χ η : Type*}

/-- What an action leaves behind in the state it finds. -/
abbrev Marking (σ φ η : Type*) := σ → φ → Option η

/-- The mark of an event, if it leaves one. -/
def Marking.marks (marking : Marking σ φ η) (config : Config σ φ) :
    Event φ χ → List (Nat × η)
  | .act thread _ =>
      match config.threads[thread]? with
      | some (frame :: _) => ((marking config.shared frame).map (Prod.mk thread)).toList
      | _ => []
  | .arrive _ => []

/-- Where a stack comes from that is there after an action. -/
theorem stack_after {threads spawned : List (List φ)} {thread other : Nat} {top stack : List φ}
    (found : (threads.set thread top ++ spawned)[other]? = some stack) :
    (other = thread ∧ stack = top) ∨ threads[other]? = some stack ∨ stack ∈ spawned := by
  rw [List.getElem?_append, List.length_set] at found
  split at found
  · rename_i bound
    rw [List.getElem?_set] at found
    split at found
    · rename_i same
      rw [if_pos (same ▸ bound)] at found
      exact Or.inl ⟨same.symm, (Option.some.inj found).symm⟩
    · exact Or.inr (Or.inl found)
  · exact Or.inr (Or.inr (List.mem_of_getElem? found))

namespace Machine

/-- The marks of a run, the oldest first. -/
def trail (machine : Machine σ φ χ) (guard : Guard σ φ χ) (marking : Marking σ φ η) :
    Config σ φ → List (Event φ χ) → List (Nat × η)
  | _, [] => []
  | config, event :: events =>
      marking.marks config event ++
        ((machine.step guard config event).map fun next =>
          machine.trail guard marking next events).getD []

variable {machine : Machine σ φ χ} {guard : Guard σ φ χ} {marking : Marking σ φ η}

theorem trail_append {start middle : Config σ φ} {first : List (Event φ χ)}
    (ran : machine.run guard start first = some middle) (second : List (Event φ χ)) :
    machine.trail guard marking start (first ++ second) =
      machine.trail guard marking start first ++ machine.trail guard marking middle second := by
  induction first generalizing start with
  | nil =>
      cases ran
      rfl
  | cons event events ih =>
      obtain ⟨next, stepTo, rest⟩ := Option.bind_eq_some_iff.mp ran
      simp only [List.cons_append, trail, stepTo, Option.map_some, Option.getD_some, ih rest,
        List.append_assoc]

theorem trail_singleton (config : Config σ φ) (event : Event φ χ) :
    machine.trail guard marking config [event] = marking.marks config event := by
  cases stepTo : machine.step guard config event <;> simp [trail, stepTo]

/-- A frame that always leaves a mark does not act unseen. -/
theorem trail_ne_nil {start : Config σ φ} {events : List (Event φ χ)} {frame : φ}
    (always : ∀ shared, (marking shared frame).isSome)
    (acted : frame ∈ machine.actions guard start events) :
    machine.trail guard marking start events ≠ [] := by
  induction events generalizing start with
  | nil => cases acted
  | cons event events ih =>
      rw [actions, List.mem_append] at acted
      rw [trail, ne_eq, List.append_eq_nil_iff, not_and_or]
      rcases acted with first | later
      · left
        cases event with
        | arrive _ => cases first
        | act thread choice =>
            obtain ⟨stack, found, top⟩ :=
              Option.bind_eq_some_iff.mp (Option.mem_toList.mp first)
            obtain ⟨rest, rfl⟩ := List.head?_eq_some_iff.mp top
            obtain ⟨written, marked⟩ := Option.isSome_iff_exists.mp (always start.shared)
            simp [Marking.marks, found, marked]
      · right
        cases stepTo : machine.step guard start event with
        | none => simp [stepTo] at later
        | some next =>
            rw [stepTo] at later
            exact ih later

/-- A relation between the configuration and the trail so far holds after a run
once an arrival and the action of a top frame preserve it. -/
theorem trail_invariant {start config : Config σ φ} {events : List (Event φ χ)}
    (inv : Config σ φ → List (Nat × η) → Prop)
    (ran : machine.run guard start events = some config) (initially : inv start [])
    (arrive : ∀ config frame past, inv config past → machine.arrives frame = true →
      inv ⟨config.shared, config.threads ++ [[frame]]⟩ past)
    (act : ∀ (config : Config σ φ) thread frame rest choice outcome past, inv config past →
      config.threads[thread]? = some (frame :: rest) →
      machine.act config.shared frame choice = some outcome →
      inv ⟨outcome.shared, config.threads.set thread (outcome.frames ++ rest) ++ outcome.spawned⟩
        (past ++ ((marking config.shared frame).map (Prod.mk thread)).toList)) :
    inv config (machine.trail guard marking start events) := by
  induction ran using run_induct with
  | initially => exact initially
  | further events before event config reached stepTo _ earlier =>
      rw [trail_append reached, trail_singleton]
      cases event with
      | act thread choice =>
          obtain ⟨frame, rest, outcome, found, -, acted, rfl⟩ := step_act_threads stepTo
          simp only [Marking.marks, found]
          exact act before thread frame rest choice outcome _ earlier found acted
      | arrive frame =>
          simp only [step] at stepTo
          split at stepTo
          · rename_i arriving
            cases stepTo
            rw [Marking.marks, List.append_nil]
            exact arrive before frame _ earlier arriving
          · cases stepTo

end Machine

end Interleaving
