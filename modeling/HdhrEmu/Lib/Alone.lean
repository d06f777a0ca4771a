import HdhrEmu.Lib.Trail

/-!
# One thread alone on what is in view

A view is a part of the shared state, and a marking tells which actions may
change it.  While no other thread does such an action, what holds of the view
and of the stack of a thread is changed by this thread only, and can be
followed along its own actions as if it ran by itself.
-/

namespace Interleaving

variable {σ φ χ η υ : Type*}

/-- An action that leaves no mark leaves the view as it is. -/
def Marking.Covers (marking : Marking σ φ η) (machine : Machine σ φ χ) (view : σ → υ) : Prop :=
  ∀ shared frame choice outcome, machine.act shared frame choice = some outcome →
    marking shared frame = none → view outcome.shared = view shared

/-- The marks are of one thread. -/
def Alone (thread : Nat) (trail : List (Nat × η)) : Prop :=
  ∀ mark ∈ trail, mark.1 = thread

theorem alone_append {thread : Nat} {first second : List (Nat × η)} :
    Alone thread (first ++ second) ↔ Alone thread first ∧ Alone thread second :=
  List.forall_mem_append

/-- What a trail of one thread says, the thread apart. -/
def ownMarks (trail : List (Nat × η)) : List η :=
  trail.map Prod.snd

namespace Machine

variable {machine : Machine σ φ χ} {guard : Guard σ φ χ} {marking : Marking σ φ η} {view : σ → υ}

/-- A relation between the view, the stack of a thread and the marks so far
holds after a run in which the thread is alone once its actions preserve it. -/
theorem alone_invariant {first last : Config σ φ} {events : List (Event φ χ)} {thread : Nat}
    {stack : List φ} (inv : υ → List φ → List η → Prop) (covers : marking.Covers machine view)
    (found : first.threads[thread]? = some stack) (initially : inv (view first.shared) stack [])
    (own : ∀ shared frame rest choice outcome past, inv (view shared) (frame :: rest) past →
      machine.act shared frame choice = some outcome →
      inv (view outcome.shared) (outcome.frames ++ rest) (past ++ (marking shared frame).toList))
    (ran : machine.run guard first events = some last)
    (alone : Alone thread (machine.trail guard marking first events)) :
    ∃ left, last.threads[thread]? = some left ∧
      inv (view last.shared) left (ownMarks (machine.trail guard marking first events)) := by
  revert alone
  apply trail_invariant (fun config past => Alone thread past →
    ∃ left, config.threads[thread]? = some left ∧ inv (view config.shared) left (ownMarks past)) ran
  · exact fun _ => ⟨stack, found, initially⟩
  · intro config frame past held _ alone
    obtain ⟨left, there, holds⟩ := held alone
    have bound := (List.getElem?_eq_some_iff.mp there).1
    exact ⟨left, by rw [List.getElem?_append_left bound, there], holds⟩
  · intro config other frame rest choice outcome past held top acted alone
    obtain ⟨earlier, now⟩ := alone_append.mp alone
    obtain ⟨left, there, holds⟩ := held earlier
    by_cases same : other = thread
    · subst same
      rw [top] at there
      cases there
      refine ⟨outcome.frames ++ rest, ?_, ?_⟩
      · exact stack_of_acting top
      · have next := own config.shared frame rest choice outcome _ holds acted
        rw [ownMarks, List.map_append]
        cases marked : marking config.shared frame with
        | none =>
            rw [marked] at next
            exact next
        | some mark =>
            rw [marked] at next
            exact next
    · -- Another thread leaves no mark, or it would not be alone.
      have unmarked : marking config.shared frame = none := by
        cases marked : marking config.shared frame with
        | none => rfl
        | some mark =>
            rw [marked] at now
            exact absurd (now (other, mark) List.mem_cons_self) same
      refine ⟨left, ?_, ?_⟩
      · exact stack_of_other same there
      · rw [unmarked, Option.map_none, Option.toList_none, List.append_nil,
          covers config.shared frame choice outcome acted unmarked]
        exact holds

/-- A run without marks leaves the view as it is. -/
theorem view_of_unmarked {first last : Config σ φ} {events : List (Event φ χ)}
    (covers : marking.Covers machine view) (ran : machine.run guard first events = some last)
    (unmarked : machine.trail guard marking first events = []) :
    view last.shared = view first.shared := by
  revert unmarked
  apply trail_invariant (fun config past => past = [] → view config.shared = view first.shared) ran
  · exact fun _ => rfl
  · exact fun _ _ _ held _ => held
  · intro config thread frame rest choice outcome past held _ acted nothing
    obtain ⟨earlier, now⟩ := List.append_eq_nil_iff.mp nothing
    have unseen : marking config.shared frame = none := by
      cases marked : marking config.shared frame with
      | none => rfl
      | some mark =>
          rw [marked] at now
          cases now
    exact (covers config.shared frame choice outcome acted unseen).trans (held earlier)

end Machine

end Interleaving
