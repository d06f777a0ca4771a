import Mathlib.Data.Multiset.Bind
import Mathlib.Algebra.Order.BigOperators.Group.Multiset
import Mathlib.Algebra.BigOperators.Group.Multiset.Basic
import Mathlib.Algebra.Order.Group.Multiset
import Mathlib.Tactic.Abel

/-!
# Interleaved threads over a shared state

A thread is a stack of frames, one for each call that has not returned.  A
step picks a thread, takes its top frame and performs one atomic action of it:
a critical section, or one blocking call.  The action changes the shared
state, replaces the frame by the frames of what is left to do, and may start
further threads.  What the program does not decide (the result of a system
call, which waiter times out) is resolved by a choice that the step carries.

The order of the frames matters for what runs next, but invariants only speak
about which frames exist.  They are therefore stated over the multiset of all
frames of all threads, and `Reachable.invariant` reduces them to one action.
-/

namespace Interleaving

/-- The effect of one atomic action. -/
structure Outcome (σ φ : Type*) where
  shared : σ
  frames : List φ
  spawned : List (List φ)

/-- The frames that an action leaves or starts. -/
def Outcome.next {σ φ : Type*} (outcome : Outcome σ φ) : List φ :=
  outcome.frames ++ outcome.spawned.flatten

/-- A family of threads: the action of every kind of frame, and the frames
with which a new thread can appear at any time. -/
structure Machine (σ φ χ : Type*) where
  act : σ → φ → χ → Option (Outcome σ φ)
  arrives : φ → Bool

structure Config (σ φ : Type*) where
  shared : σ
  threads : List (List φ)
  deriving DecidableEq

inductive Event (φ χ : Type*)
  | act (thread : Nat) (choice : χ)
  | arrive (frame : φ)

variable {σ φ χ : Type*}

/-- All frames of all threads. -/
def Config.frames (config : Config σ φ) : Multiset φ :=
  (config.threads.flatten : List φ)

/-- A restriction of the schedules: what the acting frame, the other frames
and the choice have to satisfy before the action. -/
abbrev Guard (σ φ χ : Type*) := σ → φ → List φ → χ → Bool

/-- No restriction. -/
def Guard.all : Guard σ φ χ := fun _ _ _ _ => true

/-- The stack of the thread that acts. -/
theorem stack_of_acting {threads spawned : List (List φ)} {thread : Nat} {top stack : List φ}
    (found : threads[thread]? = some stack) :
    (threads.set thread top ++ spawned)[thread]? = some top := by
  have bound := (List.getElem?_eq_some_iff.mp found).1
  rw [List.getElem?_append_left (by rwa [List.length_set]), List.getElem?_set_self bound]

/-- The stack of any other thread. -/
theorem stack_of_other {threads spawned : List (List φ)} {thread other : Nat}
    {top stack : List φ} (apart : thread ≠ other) (found : threads[other]? = some stack) :
    (threads.set thread top ++ spawned)[other]? = some stack := by
  have bound := (List.getElem?_eq_some_iff.mp found).1
  rw [List.getElem?_append_left (by rwa [List.length_set]), List.getElem?_set_ne apart, found]

namespace Machine

/-- One step of a schedule that respects `guard`. -/
def step (machine : Machine σ φ χ) (guard : Guard σ φ χ)
    (config : Config σ φ) : Event φ χ → Option (Config σ φ)
  | .act thread choice =>
      match config.threads[thread]? with
      | some (frame :: rest) =>
          if guard config.shared frame
              (rest ++ (config.threads.eraseIdx thread).flatten) choice then
            (machine.act config.shared frame choice).map fun outcome =>
              ⟨outcome.shared,
                config.threads.set thread (outcome.frames ++ rest) ++ outcome.spawned⟩
          else none
      | _ => none
  | .arrive frame =>
      if machine.arrives frame then
        some ⟨config.shared, config.threads ++ [[frame]]⟩
      else none

/-- A whole schedule. -/
def run (machine : Machine σ φ χ) (guard : Guard σ φ χ) :
    Config σ φ → List (Event φ χ) → Option (Config σ φ)
  | config, [] => some config
  | config, event :: events =>
      (machine.step guard config event).bind fun next => machine.run guard next events

/-- `config` is reached from `start` by some schedule that respects `guard`. -/
def Reachable (machine : Machine σ φ χ) (guard : Guard σ φ χ)
    (start config : Config σ φ) : Prop :=
  ∃ events, machine.run guard start events = some config

/-- A schedule that ends in a configuration with a decidable property. -/
theorem reachable_of_run (machine : Machine σ φ χ) (guard : Guard σ φ χ)
    (start : Config σ φ) (events : List (Event φ χ)) (p : Config σ φ → Prop) [DecidablePred p]
    (ends : (machine.run guard start events).any (fun config => decide (p config)) = true) :
    ∃ config, machine.Reachable guard start config ∧ p config := by
  cases ran : machine.run guard start events with
  | none => simp [ran] at ends
  | some config =>
      rw [ran, Option.any_some, decide_eq_true_iff] at ends
      exact ⟨config, ⟨events, ran⟩, ends⟩

theorem run_append (machine : Machine σ φ χ) (guard : Guard σ φ χ)
    (start : Config σ φ) (first second : List (Event φ χ)) :
    machine.run guard start (first ++ second) =
      (machine.run guard start first).bind fun middle =>
        machine.run guard middle second := by
  induction first generalizing start with
  | nil => rfl
  | cons event events ih =>
      simp only [List.cons_append, run]
      cases machine.step guard start event with
      | none => rfl
      | some next => exact ih next

/-- Induction along a schedule: what holds at its beginning, and is kept by
every further event, holds at its end. -/
@[elab_as_elim]
theorem run_induct {machine : Machine σ φ χ} {guard : Guard σ φ χ} {start : Config σ φ}
    {motive : ∀ (events : List (Event φ χ)) (config : Config σ φ),
      machine.run guard start events = some config → Prop} (initially : motive [] start rfl)
    (further : ∀ events before event next (reached : machine.run guard start events = some before)
      (_ : machine.step guard before event = some next)
      (ran : machine.run guard start (events ++ [event]) = some next),
      motive events before reached → motive (events ++ [event]) next ran)
    {events : List (Event φ χ)} {config : Config σ φ}
    (ran : machine.run guard start events = some config) : motive events config ran := by
  induction events using List.reverseRecOn generalizing config with
  | nil =>
      cases ran
      exact initially
  | append_singleton events event ih =>
      have split := ran
      rw [run_append] at split
      obtain ⟨before, reached, last⟩ := Option.bind_eq_some_iff.mp split
      have stepTo : machine.step guard before event = some config := by
        simpa [run] using last
      exact further events before event config reached stepTo ran (ih reached)

theorem Reachable.step {machine : Machine σ φ χ} {guard : Guard σ φ χ}
    {start config next : Config σ φ} {event : Event φ χ}
    (reachable : machine.Reachable guard start config)
    (stepTo : machine.step guard config event = some next) :
    machine.Reachable guard start next := by
  obtain ⟨events, ran⟩ := reachable
  refine ⟨events ++ [event], ?_⟩
  simp [run_append, ran, run, stepTo]

/-- What a step of an existing thread is made of. -/
theorem step_act_threads {machine : Machine σ φ χ} {guard : Guard σ φ χ}
    {config next : Config σ φ} {thread : Nat} {choice : χ}
    (stepTo : machine.step guard config (.act thread choice) = some next) :
    ∃ (frame : φ) (rest : List φ) (outcome : Outcome σ φ),
      config.threads[thread]? = some (frame :: rest) ∧
      guard config.shared frame (rest ++ (config.threads.eraseIdx thread).flatten) choice = true ∧
      machine.act config.shared frame choice = some outcome ∧
      next = ⟨outcome.shared,
        config.threads.set thread (outcome.frames ++ rest) ++ outcome.spawned⟩ := by
  simp only [Machine.step] at stepTo
  split at stepTo
  · rename_i frame rest found
    split at stepTo
    · rename_i allowed
      obtain ⟨outcome, acted, rfl⟩ := Option.map_eq_some_iff.mp stepTo
      exact ⟨frame, rest, outcome, found, allowed, acted, rfl⟩
    · cases stepTo
  · cases stepTo

/-- The top frame of a thread, and all the others. -/
theorem frames_of_top {config : Config σ φ} {thread : Nat} {frame : φ} {rest : List φ}
    (found : config.threads[thread]? = some (frame :: rest)) :
    config.frames =
      frame ::ₘ ((rest ++ (config.threads.eraseIdx thread).flatten : List φ) : Multiset φ) := by
  have bound : thread < config.threads.length := (List.getElem?_eq_some_iff.mp found).1
  have split : config.threads.flatten.Perm
      (frame :: rest ++ (config.threads.eraseIdx thread).flatten) := by
    have parts := List.eraseIdx_eq_take_drop_succ config.threads thread
    rw [parts, List.flatten_append]
    conv_lhs =>
      rw [← List.take_append_drop thread config.threads,
        List.drop_eq_getElem_cons bound, List.flatten_append, List.flatten_cons,
        (List.getElem?_eq_some_iff.mp found).2]
    exact List.perm_append_comm_assoc _ _ _
  exact Multiset.coe_eq_coe.mpr split

/-- What a step of an existing thread does to the frames. -/
theorem step_act {machine : Machine σ φ χ} {guard : Guard σ φ χ}
    {config next : Config σ φ} {thread : Nat} {choice : χ}
    (stepTo : machine.step guard config (.act thread choice) = some next) :
    ∃ (frame : φ) (others : List φ) (outcome : Outcome σ φ),
      (∃ rest, config.threads[thread]? = some (frame :: rest) ∧
        others = rest ++ (config.threads.eraseIdx thread).flatten) ∧
      guard config.shared frame others choice = true ∧
      machine.act config.shared frame choice = some outcome ∧
      next.shared = outcome.shared ∧
      config.frames = frame ::ₘ (others : Multiset φ) ∧
      next.frames = (outcome.frames : Multiset φ) +
        ((outcome.spawned.flatten : List φ) + (others : Multiset φ)) := by
  obtain ⟨frame, rest, outcome, found, allowed, acted, rfl⟩ := step_act_threads stepTo
  have bound : thread < config.threads.length := (List.getElem?_eq_some_iff.mp found).1
  refine ⟨frame, _, outcome, ⟨rest, found, rfl⟩, allowed, acted, rfl, frames_of_top found, ?_⟩
  simp only [Config.frames, List.flatten_append, List.set_eq_take_append_cons_drop, bound,
    if_true, List.flatten_cons, List.eraseIdx_eq_take_drop_succ, ← Multiset.coe_add]
  abel

/-- What the arrival of a thread does to the frames. -/
theorem step_arrive {machine : Machine σ φ χ} {guard : Guard σ φ χ}
    {config next : Config σ φ} {frame : φ}
    (stepTo : machine.step guard config (.arrive frame) = some next) :
    machine.arrives frame = true ∧ next.shared = config.shared ∧
      next.frames = frame ::ₘ config.frames := by
  simp only [Machine.step] at stepTo
  split at stepTo
  · rename_i arriving
    cases stepTo
    refine ⟨arriving, rfl, ?_⟩
    simp [Config.frames, ← Multiset.singleton_add, add_comm, ← Multiset.coe_add]
  · cases stepTo

/-- A property of single stacks holds of every stack in every reachable
configuration once the actions of the top frames preserve it. -/
theorem Reachable.forall_stacks {machine : Machine σ φ χ} {guard : Guard σ φ χ}
    {start config : Config σ φ} (p : List φ → Prop)
    (reachable : machine.Reachable guard start config)
    (initially : ∀ stack ∈ start.threads, p stack)
    (arrive : ∀ frame, machine.arrives frame = true → p [frame])
    (act : ∀ shared frame rest choice outcome, p (frame :: rest) →
      machine.act shared frame choice = some outcome →
      p (outcome.frames ++ rest) ∧ ∀ stack ∈ outcome.spawned, p stack) :
    ∀ stack ∈ config.threads, p stack := by
  obtain ⟨events, ran⟩ := reachable
  induction ran using run_induct with
  | initially => exact initially
  | further events before event config reached stepTo _ ih =>
      cases event with
      | act thread choice =>
          obtain ⟨frame, rest, outcome, found, -, acted, rfl⟩ := step_act_threads stepTo
          obtain ⟨left, spawned⟩ := act _ _ _ _ _ (ih _ (List.mem_of_getElem? found)) acted
          intro stack member
          rcases List.mem_append.mp member with kept | new
          · rcases List.mem_or_eq_of_mem_set kept with kept | rfl
            · exact ih stack kept
            · exact left
          · exact spawned stack new
      | arrive frame =>
          simp only [Machine.step] at stepTo
          split at stepTo
          · rename_i arriving
            cases stepTo
            intro stack member
            rcases List.mem_append.mp member with kept | new
            · exact ih stack kept
            · rw [List.mem_singleton.mp new]
              exact arrive frame arriving
          · cases stepTo

/-- The frames next to an acting one come from stacks with a property. -/
def Stacked (p : List φ → Prop) (frame : φ) (others : List φ) : Prop :=
  ∃ (rest : List φ) (threads : List (List φ)), p (frame :: rest) ∧ (∀ stack ∈ threads, p stack) ∧
    others = rest ++ threads.flatten

/-- The frame that an event lets act. -/
def acting (config : Config σ φ) : Event φ χ → List φ
  | .act thread _ => (config.threads[thread]?.bind List.head?).toList
  | .arrive _ => []

/-- The frames that act in a run, in their order. -/
def actions (machine : Machine σ φ χ) (guard : Guard σ φ χ) :
    Config σ φ → List (Event φ χ) → List φ
  | _, [] => []
  | config, event :: events =>
      acting config event ++
        ((machine.step guard config event).map fun next =>
          machine.actions guard next events).getD []

theorem actions_append {machine : Machine σ φ χ} {guard : Guard σ φ χ}
    {start config : Config σ φ} {events : List (Event φ χ)} {event : Event φ χ}
    (ran : machine.run guard start events = some config) :
    machine.actions guard start (events ++ [event]) =
      machine.actions guard start events ++ acting config event := by
  induction events generalizing start with
  | nil =>
      cases ran
      cases stepTo : machine.step guard config event <;> simp [actions, stepTo]
  | cons first events ih =>
      obtain ⟨next, stepTo, rest⟩ := Option.bind_eq_some_iff.mp ran
      simp only [List.cons_append, actions, stepTo, Option.map_some, Option.getD_some, ih rest,
        List.append_assoc]

/-- An invariant of the shared state, the multiset of frames and the actions so
far holds after every run once an arrival and a single action preserve it.  What
is already known of all reachable configurations and of all stacks can be used. -/
theorem run_invariant {machine : Machine σ φ χ} {guard : Guard σ φ χ}
    {start config : Config σ φ} {events : List (Event φ χ)} (p : List φ → Prop)
    (known : σ → Multiset φ → Prop) (inv : σ → Multiset φ → List φ → Prop)
    (stacked : ∀ config, machine.Reachable guard start config → ∀ stack ∈ config.threads, p stack)
    (holds : ∀ config, machine.Reachable guard start config →
      known config.shared config.frames)
    (ran : machine.run guard start events = some config)
    (initially : inv start.shared start.frames [])
    (arrive : ∀ shared frames frame past, inv shared frames past →
      machine.arrives frame = true → inv shared (frame ::ₘ frames) past)
    (act : ∀ shared frame (others : List φ) choice outcome past,
      Stacked p frame others →
      known shared (frame ::ₘ (others : Multiset φ)) →
      inv shared (frame ::ₘ (others : Multiset φ)) past →
      guard shared frame others choice = true →
      machine.act shared frame choice = some outcome →
      inv outcome.shared ((outcome.frames : Multiset φ) +
        ((outcome.spawned.flatten : List φ) + (others : Multiset φ))) (past ++ [frame])) :
    inv config.shared config.frames (machine.actions guard start events) := by
  induction ran using run_induct with
  | initially => exact initially
  | further events before event config reached stepTo _ earlier =>
      have fact := holds before ⟨events, reached⟩
      have each := stacked before ⟨events, reached⟩
      rw [actions_append reached]
      cases event with
      | act thread choice =>
          obtain ⟨frame, others, outcome, ⟨rest, found, split⟩, allowed, acted, shared, frames,
            after⟩ := step_act stepTo
          have top : Stacked p frame others :=
            ⟨rest, before.threads.eraseIdx thread, each _ (List.mem_of_getElem? found),
              fun stack member => each stack (List.mem_of_mem_eraseIdx member), split⟩
          have past : acting before (.act thread choice : Event φ χ) = [frame] := by
            simp [acting, found]
          rw [frames] at fact earlier
          rw [shared, after, past]
          exact act _ _ _ _ _ _ top fact earlier allowed acted
      | arrive frame =>
          obtain ⟨arriving, shared, after⟩ := step_arrive stepTo
          rw [shared, after, acting, List.append_nil]
          exact arrive _ _ _ _ earlier arriving

/-- `run_invariant` for invariants that do not look back. -/
theorem Reachable.invariant_of_stacks {machine : Machine σ φ χ} {guard : Guard σ φ χ}
    {start config : Config σ φ} (p : List φ → Prop) (known inv : σ → Multiset φ → Prop)
    (stacked : ∀ config, machine.Reachable guard start config → ∀ stack ∈ config.threads, p stack)
    (holds : ∀ config, machine.Reachable guard start config →
      known config.shared config.frames)
    (reachable : machine.Reachable guard start config)
    (initially : inv start.shared start.frames)
    (arrive : ∀ shared frames frame, inv shared frames →
      machine.arrives frame = true → inv shared (frame ::ₘ frames))
    (act : ∀ shared frame (others : List φ) choice outcome,
      Stacked p frame others →
      known shared (frame ::ₘ (others : Multiset φ)) →
      inv shared (frame ::ₘ (others : Multiset φ)) →
      guard shared frame others choice = true →
      machine.act shared frame choice = some outcome →
      inv outcome.shared ((outcome.frames : Multiset φ) +
        ((outcome.spawned.flatten : List φ) + (others : Multiset φ)))) :
    inv config.shared config.frames := by
  obtain ⟨events, ran⟩ := reachable
  exact run_invariant p known (fun shared frames _ => inv shared frames) stacked holds ran
    initially (fun shared frames frame _ => arrive shared frames frame)
    fun shared frame others choice outcome _ => act shared frame others choice outcome

/-- `invariant_of_stacks` without knowledge about the stacks. -/
theorem Reachable.invariant_of_known {machine : Machine σ φ χ} {guard : Guard σ φ χ}
    {start config : Config σ φ} (known inv : σ → Multiset φ → Prop)
    (holds : ∀ config, machine.Reachable guard start config →
      known config.shared config.frames)
    (reachable : machine.Reachable guard start config)
    (initially : inv start.shared start.frames)
    (arrive : ∀ shared frames frame, inv shared frames →
      machine.arrives frame = true → inv shared (frame ::ₘ frames))
    (act : ∀ shared frame (others : List φ) choice outcome,
      known shared (frame ::ₘ (others : Multiset φ)) →
      inv shared (frame ::ₘ (others : Multiset φ)) →
      guard shared frame others choice = true →
      machine.act shared frame choice = some outcome →
      inv outcome.shared ((outcome.frames : Multiset φ) +
        ((outcome.spawned.flatten : List φ) + (others : Multiset φ)))) :
    inv config.shared config.frames :=
  reachable.invariant_of_stacks (fun _ => True) known inv (fun _ _ _ _ => trivial) holds initially
    arrive fun shared frame others choice outcome _ => act shared frame others choice outcome

/-- `invariant_of_known` without prior knowledge. -/
theorem Reachable.invariant {machine : Machine σ φ χ} {guard : Guard σ φ χ}
    {start config : Config σ φ} (inv : σ → Multiset φ → Prop)
    (reachable : machine.Reachable guard start config)
    (initially : inv start.shared start.frames)
    (arrive : ∀ shared frames frame, inv shared frames →
      machine.arrives frame = true → inv shared (frame ::ₘ frames))
    (act : ∀ shared frame (others : List φ) choice outcome,
      inv shared (frame ::ₘ (others : Multiset φ)) →
      guard shared frame others choice = true →
      machine.act shared frame choice = some outcome →
      inv outcome.shared ((outcome.frames : Multiset φ) +
        ((outcome.spawned.flatten : List φ) + (others : Multiset φ)))) :
    inv config.shared config.frames :=
  reachable.invariant_of_known (fun _ _ => True) inv (fun _ _ => trivial) initially
    arrive fun shared frame others choice outcome _ => act shared frame others choice outcome

/-- An invariant that consists of a condition on the shared state and a
condition on every frame: the action establishes the latter for the frames it
leaves or starts, and keeps it for all others. -/
theorem Reachable.forall_frames {machine : Machine σ φ χ} {guard : Guard σ φ χ}
    {start config : Config σ φ} (known : σ → Multiset φ → Prop) (inv : σ → Prop)
    (each : σ → φ → Prop)
    (holds : ∀ config, machine.Reachable guard start config →
      known config.shared config.frames)
    (reachable : machine.Reachable guard start config)
    (initially : inv start.shared) (initialFrames : ∀ frame ∈ start.frames, each start.shared frame)
    (arrive : ∀ shared frame, inv shared → machine.arrives frame = true → each shared frame)
    (act : ∀ shared frame (others : List φ) choice outcome,
      known shared (frame ::ₘ (others : Multiset φ)) →
      inv shared → each shared frame → (∀ other ∈ others, each shared other) →
      guard shared frame others choice = true →
      machine.act shared frame choice = some outcome →
      inv outcome.shared ∧ (∀ next ∈ outcome.next, each outcome.shared next) ∧
        ∀ other ∈ others, each outcome.shared other) :
    inv config.shared ∧ ∀ frame ∈ config.frames, each config.shared frame := by
  refine reachable.invariant_of_known known
    (fun shared frames => inv shared ∧ ∀ frame ∈ frames, each shared frame) holds
    ⟨initially, initialFrames⟩ ?_ ?_
  · rintro shared frames frame ⟨shared_, frames_⟩ arriving
    refine ⟨shared_, fun other member => ?_⟩
    rcases Multiset.mem_cons.mp member with rfl | member
    · exact arrive _ _ shared_ arriving
    · exact frames_ other member
  · rintro shared frame others choice outcome fact ⟨shared_, frames_⟩ allowed acted
    have acting := frames_ frame (Multiset.mem_cons_self _ _)
    have rest : ∀ other ∈ others, each shared other := fun other member =>
      frames_ other (Multiset.mem_cons_of_mem (Multiset.mem_coe.mpr member))
    obtain ⟨after, next, kept⟩ := act _ _ _ _ _ fact shared_ acting rest allowed acted
    refine ⟨after, fun other member => ?_⟩
    rw [Multiset.mem_add, Multiset.mem_add, Multiset.mem_coe, Multiset.mem_coe,
      Multiset.mem_coe, ← or_assoc, ← List.mem_append] at member
    exact member.elim (next other) (kept other)

section Totals

/-- The amount of an event, if it is an action of `thread`; threads keep their
positions, so a thread is its index. -/
def eventAmount (machine : Machine σ φ χ) (amount : σ → φ → Outcome σ φ → Nat) (thread : Nat)
    (config : Config σ φ) : Event φ χ → Nat
  | .act acting choice =>
      if acting = thread then
        match config.threads[acting]? with
        | some (frame :: _) =>
            ((machine.act config.shared frame choice).map (amount config.shared frame)).getD 0
        | _ => 0
      else 0
  | .arrive _ => 0

/-- The amounts of the actions of `thread` in a run. -/
def total (machine : Machine σ φ χ) (guard : Guard σ φ χ) (amount : σ → φ → Outcome σ φ → Nat)
    (thread : Nat) : Config σ φ → List (Event φ χ) → Nat
  | _, [] => 0
  | config, event :: events =>
      machine.eventAmount amount thread config event +
        ((machine.step guard config event).map fun next =>
          machine.total guard amount thread next events).getD 0

variable {machine : Machine σ φ χ} {guard : Guard σ φ χ} {config last : Config σ φ}
  {thread : Nat} {events : List (Event φ χ)}

theorem total_add (first second : σ → φ → Outcome σ φ → Nat) :
    machine.total guard (fun shared frame outcome =>
        first shared frame outcome + second shared frame outcome) thread config events =
      machine.total guard first thread config events +
        machine.total guard second thread config events := by
  induction events generalizing config with
  | nil => rfl
  | cons event events ih =>
      have now : machine.eventAmount (fun shared frame outcome =>
          first shared frame outcome + second shared frame outcome) thread config event =
          machine.eventAmount first thread config event +
            machine.eventAmount second thread config event := by
        cases event with
        | arrive frame => rfl
        | act acting choice =>
            simp only [eventAmount]
            split
            · split
              · rename_i frame rest found
                cases machine.act config.shared frame choice <;> rfl
              · rfl
            · rfl
      simp only [total, now]
      cases machine.step guard config event with
      | none => simp
      | some next =>
          simp only [Option.map_some, Option.getD_some, ih]
          omega

/-- The stack of a thread after a step, and what the step amounts to for it. -/
theorem step_thread {next : Config σ φ} {event : Event φ χ} {stack : List φ}
    (found : config.threads[thread]? = some stack)
    (stepTo : machine.step guard config event = some next) :
    (next.threads[thread]? = some stack ∧
        ∀ amount, machine.eventAmount amount thread config event = 0) ∨
      ∃ (frame : φ) (rest others : List φ) (choice : χ) (outcome : Outcome σ φ),
        stack = frame :: rest ∧ config.frames = frame ::ₘ (others : Multiset φ) ∧
        machine.act config.shared frame choice = some outcome ∧
        next.threads[thread]? = some (outcome.frames ++ rest) ∧
        ∀ amount, machine.eventAmount amount thread config event =
          amount config.shared frame outcome := by
  have bound : thread < config.threads.length := (List.getElem?_eq_some_iff.mp found).1
  cases event with
  | arrive frame =>
      simp only [step] at stepTo
      split at stepTo
      · cases stepTo
        left
        refine ⟨?_, fun _ => rfl⟩
        rw [List.getElem?_append_left bound]
        exact found
      · cases stepTo
  | act acting choice =>
      by_cases same : acting = thread
      · subst same
        obtain ⟨frame, others, outcome, ⟨rest, top, -⟩, -, acted, -, frames, -⟩ := step_act stepTo
        obtain ⟨frame_, rest_, outcome_, top_, -, acted_, rfl⟩ := step_act_threads stepTo
        rw [top] at top_
        cases top_
        rw [acted] at acted_
        cases acted_
        right
        refine ⟨frame, rest, others, choice, outcome, ?_, frames, acted, ?_, ?_⟩
        · exact Option.some.inj (found.symm.trans top)
        · exact stack_of_acting found
        · intro amount
          simp [eventAmount, top, acted]
      · obtain ⟨frame, rest, outcome, top, -, acted, rfl⟩ := step_act_threads stepTo
        left
        refine ⟨?_, fun _ => if_neg same⟩
        exact stack_of_other same found

/-- The token of a thread at the end of a run is what it had, and what it
gained on the way without what it lost. -/
theorem Reachable.thread_balanced {start : Config σ φ} {stack : List φ} (token : φ → Nat)
    (gain loss : σ → φ → Outcome σ φ → Nat) (known : σ → Multiset φ → Prop)
    (holds : ∀ config, machine.Reachable guard start config → known config.shared config.frames)
    (act : ∀ shared frame (others : List φ) choice outcome,
      known shared (frame ::ₘ (others : Multiset φ)) →
      machine.act shared frame choice = some outcome →
      token frame + gain shared frame outcome =
        (outcome.frames.map token).sum + loss shared frame outcome)
    (reachable : machine.Reachable guard start config)
    (found : config.threads[thread]? = some stack)
    (ran : machine.run guard config events = some last) :
    ∃ left, last.threads[thread]? = some left ∧
      (stack.map token).sum + machine.total guard gain thread config events =
        (left.map token).sum + machine.total guard loss thread config events := by
  induction events generalizing config stack with
  | nil =>
      cases ran
      exact ⟨stack, found, rfl⟩
  | cons event events ih =>
      obtain ⟨next, stepTo, rest⟩ := Option.bind_eq_some_iff.mp ran
      simp only [total, stepTo, Option.map_some, Option.getD_some]
      rcases step_thread found stepTo with ⟨kept, nothing⟩ | ⟨frame, below, others, choice,
        outcome, rfl, frames, acted, after, amounts⟩
      · obtain ⟨left, atEnd, balance⟩ := ih (reachable.step stepTo) kept rest
        exact ⟨left, atEnd, by rw [nothing, nothing]; omega⟩
      · obtain ⟨left, atEnd, balance⟩ := ih (reachable.step stepTo) after rest
        have fact := holds config reachable
        rw [frames] at fact
        have now := act _ _ _ _ _ fact acted
        rw [List.map_append, List.sum_append] at balance
        refine ⟨left, atEnd, ?_⟩
        rw [amounts, amounts, List.map_cons, List.sum_cons]
        omega

theorem total_zero :
    machine.total guard (fun _ _ _ => 0) thread config events = 0 := by
  have twice : machine.total guard (fun _ _ _ => 0) thread config events =
      machine.total guard (fun _ _ _ => 0) thread config events +
        machine.total guard (fun _ _ _ => 0) thread config events :=
    total_add (fun _ _ _ => 0) fun _ _ _ => 0
  omega

/-- A thread loses no more along a run than the token it begins with, if
nothing is ever added to that token. -/
theorem Reachable.thread_bounded {start : Config σ φ} {stack : List φ} (token : φ → Nat)
    (loss : σ → φ → Outcome σ φ → Nat)
    (act : ∀ shared frame choice outcome, machine.act shared frame choice = some outcome →
      loss shared frame outcome + (outcome.frames.map token).sum ≤ token frame)
    (reachable : machine.Reachable guard start config)
    (found : config.threads[thread]? = some stack)
    (ran : machine.run guard config events = some last) :
    machine.total guard loss thread config events ≤ (stack.map token).sum := by
  let dropped : σ → φ → Outcome σ φ → Nat := fun shared frame outcome =>
    token frame - (loss shared frame outcome + (outcome.frames.map token).sum)
  have settled : ∀ shared frame (others : List φ) choice outcome, True →
      machine.act shared frame choice = some outcome →
      token frame + 0 = (outcome.frames.map token).sum +
        (loss shared frame outcome + dropped shared frame outcome) := by
    intro shared frame others choice outcome _ acted
    have le := act shared frame choice outcome acted
    simp only [dropped]
    omega
  obtain ⟨left, -, balance⟩ := reachable.thread_balanced token (fun _ _ _ => 0)
    (fun shared frame outcome => loss shared frame outcome + dropped shared frame outcome)
    (fun _ _ => True) (fun _ _ => trivial) settled found ran
  rw [total_zero, total_add] at balance
  omega

end Totals

end Machine

section Tokens

variable {M : Type*} [AddCommMonoid M]

/-- The total of a token over a multiset of frames.  A token is the share of a
frame in some resource; the total is compared with what the shared state says. -/
def tally (token : φ → M) (frames : Multiset φ) : M :=
  (frames.map token).sum

@[simp]
theorem tally_zero (token : φ → M) : tally token 0 = 0 := by
  simp [tally]

@[simp]
theorem tally_cons (token : φ → M) (frame : φ) (frames : Multiset φ) :
    tally token (frame ::ₘ frames) = token frame + tally token frames := by
  simp [tally]

@[simp]
theorem tally_add (token : φ → M) (first second : Multiset φ) :
    tally token (first + second) = tally token first + tally token second := by
  rw [tally, Multiset.map_add, Multiset.sum_add]
  rfl

@[simp]
theorem tally_coe (token : φ → M) (frames : List φ) :
    tally token (frames : Multiset φ) = (frames.map token).sum := by
  simp [tally]

theorem mem_tally {α : Type*} {token : φ → Multiset α} {frames : Multiset φ} {a : α} :
    a ∈ tally token frames ↔ ∃ frame ∈ frames, a ∈ token frame :=
  Multiset.mem_bind

section Ordered

variable [PartialOrder M] [IsOrderedCancelAddMonoid M]

theorem tally_mono {first second : φ → M} (le : ∀ frame, first frame ≤ second frame)
    (frames : Multiset φ) : tally first frames ≤ tally second frames :=
  Multiset.sum_map_le_sum_map _ _ fun frame _ => le frame

variable [CanonicallyOrderedAdd M]

omit [IsOrderedCancelAddMonoid M] in
theorem token_le_tally (token : φ → M) {frame : φ} {frames : Multiset φ}
    (member : frame ∈ frames) : token frame ≤ tally token frames := by
  obtain ⟨rest, rfl⟩ := Multiset.exists_cons_of_mem member
  rw [tally_cons]
  exact le_self_add

theorem tally_eq_zero {token : φ → M} {frames : Multiset φ} :
    tally token frames = 0 ↔ ∀ frame ∈ frames, token frame = 0 := by
  simp [tally, Multiset.sum_eq_zero_iff]

/-- Double-entry bookkeeping: an action keeps `credit = debit + tokens` when
it keeps the difference of its own entries, given that the acting frame is
covered. -/
theorem Machine.Reachable.balanced {machine : Machine σ φ χ} {guard : Guard σ φ χ}
    {start config : Config σ φ} (known : σ → Multiset φ → Prop)
    (credit debit : σ → M) (token : φ → M)
    (holds : ∀ config, machine.Reachable guard start config →
      known config.shared config.frames)
    (reachable : machine.Reachable guard start config)
    (initially : credit start.shared =
      debit start.shared + tally token start.frames)
    (arrive : ∀ frame, machine.arrives frame = true → token frame = 0)
    (act : ∀ shared frame (others : List φ) choice outcome,
      known shared (frame ::ₘ (others : Multiset φ)) →
      debit shared + token frame ≤ credit shared →
      machine.act shared frame choice = some outcome →
      credit outcome.shared + (debit shared + token frame) =
        credit shared + (debit outcome.shared +
          ((outcome.frames.map token).sum + (outcome.spawned.flatten.map token).sum))) :
    credit config.shared = debit config.shared + tally token config.frames := by
  refine reachable.invariant_of_known known
    (fun shared frames => credit shared = debit shared + tally token frames) holds initially ?_ ?_
  · intro shared frames frame balance arriving
    rw [balance, tally_cons, arrive frame arriving, zero_add]
  · intro shared frame others choice outcome fact balance _ acted
    rw [tally_cons, ← add_assoc] at balance
    have covered : debit shared + token frame ≤ credit shared := by
      rw [balance]
      exact le_self_add
    have local_ := act shared frame others choice outcome fact covered acted
    rw [balance] at local_
    have cancelled : credit outcome.shared = tally token (others : Multiset φ) +
        (debit outcome.shared + ((outcome.frames.map token).sum +
          (outcome.spawned.flatten.map token).sum)) := by
      apply add_right_cancel (b := debit shared + token frame)
      rw [local_]
      abel
    rw [cancelled, tally_add, tally_add, tally_coe, tally_coe]
    abel

end Ordered

end Tokens

end Interleaving
