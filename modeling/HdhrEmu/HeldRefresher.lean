import HdhrEmu.NodeTuning

/-!
# The refresher of a hold

A hold comes with a thread that reads its signal stats.  Whoever takes the held
descriptor away from the tuner stops that thread before the descriptor is
closed or handed on.  There is only one descriptor of the frontend, so at most
one call stops a refresher at a time, and a hold that is installed finds none.

Refreshers are numbered in the order in which they are started, and every one
of them has been joined once whenever a descriptor is closed.
-/

namespace HdhrEmu

open Interleaving Interleaving.Machine

/-- The calls of `stop_held_stats_thread`. -/
@[simp]
def Frame.stopsRefresher : Frame → Bool
  | .hold .stopHeldStats | .hold (.joinHeldStats _) => true
  | _ => false

/-- The calls that are going to stop the refresher, or are about to. -/
@[simp]
def Frame.willStop : Frame → Bool
  | .hold .stopHeldStats | .hold (.joinHeldStats _) => true
  | .set (.channelSelect _ staleHeldFd) => staleHeldFd.isSome
  | .set (.channelSpawn ctx) | .scan (.scanThread ctx) => ctx.staleHeldFd.isSome
  | _ => false

/-- The call joins a refresher. -/
@[simp]
def Frame.joins (refresher : Nat) : Frame → Bool
  | .hold (.joinHeldStats thread) => thread == refresher
  | _ => false

@[simp]
def Frame.isJoin : Frame → Bool
  | .hold (.joinHeldStats _) => true
  | _ => false

/-- The descriptor that the next action of the call closes. -/
@[simp]
def Frame.closes : Frame → Option Fd
  | .hold (.frontendClose fd) | .hold (.holdReopen (fd :: _) _)
  | .hold (.installHoldFd (fd :: _) _) | .claim (.claimClosing (fd :: _) _)
  | .stream (.streamReopenClose _ _ fd) | .scan (.scanCloseStale _ fd) => some fd
  | _ => none

/-- Only the call that runs stops a refresher, and a call below it has the
descriptor that was held. -/
def StopsFirst : List Frame → Prop
  | [] => True
  | top :: rest =>
      (top.stopsRefresher = true → ∃ frame ∈ rest, frame.fds ≠ 0) ∧
        ∀ frame ∈ rest, frame.stopsRefresher = false

@[simp]
theorem fdsOf_some_add_ne_zero (fd : Fd) (fds : Multiset Fd) : fdsOf (some fd) + fds ≠ 0 := by
  intro empty
  exact fdsOf_some_ne_zero fd (add_eq_zero.mp empty).1

/-- Nothing in a list stops a refresher. -/
def quiet (frames : List Frame) : Bool :=
  frames.all fun frame => !frame.stopsRefresher

@[simp]
theorem quiet_nil : quiet [] = true :=
  rfl

@[simp]
theorem quiet_cons (frame : Frame) (frames : List Frame) :
    quiet (frame :: frames) = (!frame.stopsRefresher && quiet frames) :=
  rfl

@[simp]
theorem quiet_granted (granted : Granted) : quiet granted.frames = true := by
  rcases granted with ⟨_ | _, _⟩ | _ <;> rfl

@[simp]
theorem quiet_claimTimedOut (db : ChannelDb) (who : Claimant) :
    quiet (who.claimTimedOut db) = true := by
  rcases who with ⟨_ | _, _⟩ | _ <;> rfl

@[simp]
theorem quiet_openFailed (who : Streamer) : quiet who.openFailed = true := by
  cases who <;> rfl

@[simp]
theorem quiet_opened (who : Streamer) (stream : DvbStream) : quiet (who.opened stream) = true := by
  cases who <;> rfl

/-- Nothing in a list joins a refresher. -/
def joinless (frames : List Frame) : Bool :=
  frames.all fun frame => !frame.isJoin

@[simp]
theorem joinless_nil : joinless [] = true :=
  rfl

@[simp]
theorem joinless_cons (frame : Frame) (frames : List Frame) :
    joinless (frame :: frames) = (!frame.isJoin && joinless frames) :=
  rfl

@[simp]
theorem joinless_append (first second : List Frame) :
    joinless (first ++ second) = (joinless first && joinless second) :=
  List.all_append

@[simp]
theorem joinless_stopping (held : Option Fd) (frames : List Frame) :
    joinless (stopping held frames) = joinless frames := by
  cases held <;> rfl

theorem joinless_of_quiet {frames : List Frame} (none : quiet frames = true) :
    joinless frames = true := by
  unfold quiet at none
  unfold joinless
  rw [List.all_eq_true] at none ⊢
  intro frame member
  have stays := none frame member
  revert stays
  fun_cases Frame.isJoin frame <;> simp

@[simp]
theorem joinless_granted (granted : Granted) : joinless granted.frames = true :=
  joinless_of_quiet (quiet_granted granted)

@[simp]
theorem joinless_claimTimedOut (db : ChannelDb) (who : Claimant) :
    joinless (who.claimTimedOut db) = true :=
  joinless_of_quiet (quiet_claimTimedOut db who)

@[simp]
theorem joinless_openFailed (who : Streamer) : joinless who.openFailed = true :=
  joinless_of_quiet (quiet_openFailed who)

@[simp]
theorem joinless_opened (who : Streamer) (stream : DvbStream) :
    joinless (who.opened stream) = true :=
  joinless_of_quiet (quiet_opened who stream)

theorem forall_of_quiet {frames : List Frame} (none : quiet frames = true) :
    ∀ frame ∈ frames, frame.stopsRefresher = false := by
  intro frame member
  simpa using List.all_eq_true.mp none frame member

theorem stopsFirst_of_quiet {frames : List Frame} (none : quiet frames = true) :
    StopsFirst frames := by
  cases frames with
  | nil => trivial
  | cons top rest =>
      rw [quiet_cons, Bool.and_eq_true, Bool.not_eq_true'] at none
      refine ⟨fun stops => ?_, forall_of_quiet none.2⟩
      rw [none.1] at stops
      cases stops

/-- A stop in front of a call with the descriptor that is stopped for. -/
theorem stopsFirst_stop {frame : Frame} {rest : List Frame} (owns : frame.fds ≠ 0)
    (none : quiet (frame :: rest) = true) :
    StopsFirst (.hold .stopHeldStats :: frame :: rest) :=
  ⟨fun _ => ⟨frame, List.mem_cons_self, owns⟩, forall_of_quiet none⟩

theorem stopsFirst_stopping {held : Option Fd} {frame : Frame} {rest : List Frame}
    (owns : held.isSome = true → frame.fds ≠ 0) (none : quiet (frame :: rest) = true) :
    StopsFirst (stopping held (frame :: rest)) := by
  cases held with
  | none => exact stopsFirst_of_quiet none
  | some fd => exact stopsFirst_stop (owns rfl) none

section Groups

variable {w : World} {χ : Choice} {outcome : Outcome}

/-- The frames that an action leaves, and the threads that it starts. -/
def KeepsStopsFirst (frame : Frame) (outcome : Outcome) : Prop :=
  (StopsFirst outcome.frames ∨
    frame.stopsRefresher = true ∧ ∃ thread, outcome.frames = [.hold (.joinHeldStats thread)]) ∧
  ∀ stack ∈ outcome.spawned, StopsFirst stack

theorem keepsStopsFirst_of_quiet {frame : Frame} (frames : quiet outcome.frames = true)
    (spawned : outcome.spawned.all quiet = true) : KeepsStopsFirst frame outcome := by
  refine ⟨.inl (stopsFirst_of_quiet frames), fun stack member => ?_⟩
  exact stopsFirst_of_quiet (List.all_eq_true.mp spawned stack member)

theorem holdAct_stopsFirst {frame : HoldFrame} (acted : holdAct w χ frame = some outcome) :
    KeepsStopsFirst (.hold frame) outcome := by
  revert acted
  fun_cases holdAct w χ frame <;> intro acted <;> cases acted
  case case1.refl => exact ⟨.inr ⟨rfl, _, rfl⟩, fun _ member => absurd member List.not_mem_nil⟩
  case case9.refl | case20.refl =>
      refine ⟨.inl (stopsFirst_stopping (fun held => ?_) rfl), fun _ member => absurd member List.not_mem_nil⟩
      obtain ⟨fd, is⟩ := Option.isSome_iff_exists.mp held
      simp [is]
  all_goals first
    | exact ⟨.inl (stopsFirst_stop (by simp) rfl), fun _ member => absurd member List.not_mem_nil⟩
    | exact keepsStopsFirst_of_quiet (by simp) (by simp)

theorem claim_stopsFirst {t : Tuner} {who : Claimant} {frame : Frame}
    (acted : w.claim t who = some outcome) : KeepsStopsFirst frame outcome := by
  cases acted
  refine ⟨.inl (stopsFirst_stopping (fun held => ?_) rfl), fun _ member => absurd member List.not_mem_nil⟩
  obtain ⟨fd, is⟩ := Option.isSome_iff_exists.mp held
  rw [Frame.fds, ClaimFrame.fds, fds_detached t.detached who]
  simp [Tuner.detached, is]

theorem act_stopsFirst {frame : Frame} (acted : act w frame χ = some outcome) :
    KeepsStopsFirst frame outcome := by
  revert acted
  cases frame with
  | hold frame => exact holdAct_stopsFirst
  | release frame =>
      simp only [act]
      fun_cases releaseAct w χ frame <;> intro acted <;> cases acted <;>
        exact keepsStopsFirst_of_quiet (by simp) (by simp)
  | claim frame =>
      simp only [act]
      fun_cases claimAct w χ frame <;> intro acted
      all_goals first
        | exact claim_stopsFirst acted
        | cases acted
          exact keepsStopsFirst_of_quiet (by simp) (by simp)
        | cases acted
  | stream frame =>
      simp only [act]
      fun_cases streamAct w χ frame <;> intro acted <;> cases acted <;>
        exact keepsStopsFirst_of_quiet (by simp) (by simp)
  | push frame =>
      simp only [act]
      fun_cases pushAct w χ frame <;> intro acted <;> cases acted <;>
        exact keepsStopsFirst_of_quiet (by simp) (by simp)
  | pull frame =>
      simp only [act]
      fun_cases pullAct w χ frame <;> intro acted <;> cases acted <;>
        exact keepsStopsFirst_of_quiet (by simp) (by simp)
  | set frame =>
      simp only [act]
      fun_cases setAct w χ frame <;> intro acted <;> cases acted
      all_goals first
        | exact ⟨.inl (stopsFirst_stop (by simp) rfl), fun _ member => absurd member List.not_mem_nil⟩
        | exact keepsStopsFirst_of_quiet (by simp) (by simp)
  | scan frame =>
      simp only [act]
      fun_cases scanAct w χ frame <;> intro acted <;> cases acted
      all_goals first
        | exact ⟨.inl (stopsFirst_stop (by simp) rfl), fun _ member => absurd member List.not_mem_nil⟩
        | exact keepsStopsFirst_of_quiet (by simp) (by simp)
  | stats frame =>
      simp only [act]
      fun_cases statsAct w χ frame <;> intro acted <;> cases acted <;>
        exact keepsStopsFirst_of_quiet (by simp) (by simp)

/-- What the tuner record says about the refresher. -/
def World.refresher (w : World) : Bool × Nat × Nat :=
  (w.tuner.heldStatsThreadStarted, w.tuner.heldStatsThread, w.nextHeldThread)

/-- What an action can do to the refresher: stop it, join it, start one, or
leave it alone and make sure that it will be stopped when its hold is taken. -/
inductive RefresherStep (w : World) : Frame → Outcome → Prop
  | stop {outcome : Outcome} (same : outcome.shared.refresher = w.refresher)
      (next : outcome.next =
        if w.tuner.heldStatsThreadStarted then [.hold (.joinHeldStats w.tuner.heldStatsThread)]
        else []) : RefresherStep w (.hold .stopHeldStats) outcome
  | join {thread : Nat} {outcome : Outcome}
      (same : outcome.shared.refresher = (false, w.refresher.2)) (next : outcome.next = []) :
      RefresherStep w (.hold (.joinHeldStats thread)) outcome
  | start {fd : Fd} {outcome : Outcome}
      (started : outcome.shared.refresher = (true, w.nextHeldThread, w.nextHeldThread + 1))
      (held : outcome.shared.tuner.heldFd.isSome = true) (joins : joinless outcome.next = true) :
      RefresherStep w (.hold (.installHoldFd [] fd)) outcome
  | noThread {fd : Fd} {outcome : Outcome}
      (same : outcome.shared.refresher = (false, w.refresher.2)) (next : outcome.next = []) :
      RefresherStep w (.hold (.installHoldFd [] fd)) outcome
  | other {frame : Frame} {outcome : Outcome} (same : outcome.shared.refresher = w.refresher)
      (acts : frame.stopsRefresher = false) (joins : joinless outcome.next = true)
      (kept : w.tuner.heldFd.isSome = true ∨ frame.willStop = true →
        outcome.shared.tuner.heldFd.isSome = true ∨
          ∃ next ∈ outcome.next, next.willStop = true) : RefresherStep w frame outcome

/-- A hold that is taken comes with a call that stops its refresher. -/
@[simp]
theorem exists_willStop_stopping {held : Option Fd} {frames : List Frame}
    (taken : held.isSome = true) : ∃ next ∈ stopping held frames, next.willStop = true := by
  rw [stopping, if_pos taken]
  exact ⟨_, List.mem_cons_self, rfl⟩

/-- An action that leaves the refresher and the hold alone. -/
theorem RefresherStep.kept {frame : Frame} (same : outcome.shared.refresher = w.refresher)
    (acts : frame.stopsRefresher = false) (goes : frame.willStop = false)
    (joins : joinless outcome.next = true)
    (held : outcome.shared.tuner.heldFd = w.tuner.heldFd) : RefresherStep w frame outcome := by
  refine .other same acts joins ?_
  rintro (taken | stops)
  · exact .inl (held ▸ taken)
  · rw [goes] at stops
    cases stops

theorem holdAct_refresherStep {frame : HoldFrame} (acted : holdAct w χ frame = some outcome) :
    RefresherStep w (.hold frame) outcome := by
  revert acted
  fun_cases holdAct w χ frame <;> intro acted <;> cases acted
  case case1.refl started => exact .stop rfl (by simp [Outcome.next, started])
  case case2.refl started => exact .stop rfl (by simp [Outcome.next, started])
  case case4.refl => exact .join rfl rfl
  case case17.refl => exact .start rfl rfl rfl
  case case18.refl => exact .noThread rfl rfl
  case case9.refl | case20.refl =>
      refine .other rfl rfl (by simp [Outcome.next]) ?_
      rintro (taken | stops)
      · exact .inr (by simpa [Outcome.next] using exists_willStop_stopping taken)
      · cases stops
  all_goals exact .other rfl rfl (by simp [Outcome.next]) (by simp_all [Outcome.next])

theorem claim_refresherStep {t : Tuner} {who : Claimant} {frame : Frame}
    (acted : w.claim t who = some outcome) (acts : frame.stopsRefresher = false)
    (goes : frame.willStop = false)
    (same : (t.heldStatsThreadStarted, t.heldStatsThread, t.heldFd) =
      (w.tuner.heldStatsThreadStarted, w.tuner.heldStatsThread, w.tuner.heldFd)) :
    RefresherStep w frame outcome := by
  cases acted
  obtain ⟨started, thread, held⟩ : _ ∧ _ ∧ _ := by simpa using same
  refine .other ?_ acts (by simp [Outcome.next]) ?_
  · rw [World.refresher, World.refresher, ← started, ← thread]
    rfl
  · rintro (taken | stops)
    · rw [← held] at taken
      exact .inr (by simpa [Outcome.next] using exists_willStop_stopping taken)
    · rw [goes] at stops
      cases stops

theorem act_refresherStep {frame : Frame} (acted : act w frame χ = some outcome) :
    RefresherStep w frame outcome := by
  revert acted
  cases frame with
  | hold frame => exact holdAct_refresherStep
  | release frame =>
      simp only [act]
      fun_cases releaseAct w χ frame <;> intro acted <;> cases acted
      all_goals first
        | exact .kept rfl rfl rfl rfl rfl
        | exact .other (by simp [World.refresher]) rfl (by simp [Outcome.next])
            (by simp_all [Outcome.next])
  | claim frame =>
      simp only [act]
      fun_cases claimAct w χ frame <;> intro acted
      all_goals first
        | exact claim_refresherStep acted rfl rfl rfl
        | cases acted
          exact .other rfl rfl (by simp [Outcome.next]) (by simp_all [Outcome.next])
        | cases acted
  | stream frame =>
      simp only [act]
      fun_cases streamAct w χ frame <;> intro acted <;> cases acted <;>
        exact .kept rfl rfl rfl (by simp [Outcome.next]) rfl
  | push frame =>
      simp only [act]
      fun_cases pushAct w χ frame <;> intro acted <;> cases acted
      all_goals first
        | exact .kept rfl rfl rfl rfl rfl
        | exact .other (by simp [World.refresher]) rfl (by simp [Outcome.next])
            (by simp_all [Outcome.next])
  | pull frame =>
      simp only [act]
      fun_cases pullAct w χ frame <;> intro acted <;> cases acted
      all_goals first
        | exact .kept rfl rfl rfl rfl rfl
        | exact .other (by simp [World.refresher]) rfl (by simp [Outcome.next])
            (by simp_all [Outcome.next])
  | set frame =>
      simp only [act]
      fun_cases setAct w χ frame <;> intro acted <;> cases acted
      all_goals first
        | exact .kept rfl rfl rfl rfl rfl
        | exact .other (by simp [World.refresher]) rfl (by simp [Outcome.next])
            (by simp_all [Outcome.next, Tuner.staleHeldFd, Tuner.channelScanCtx])
  | scan frame =>
      simp only [act]
      fun_cases scanAct w χ frame <;> intro acted <;> cases acted
      all_goals first
        | exact .kept rfl rfl rfl rfl rfl
        | exact .other (by simp [World.refresher]) rfl (by simp [Outcome.next])
            (by simp_all [Outcome.next])
  | stats frame =>
      simp only [act]
      fun_cases statsAct w χ frame <;> intro acted <;> cases acted
      all_goals exact .kept rfl rfl rfl (by simp [Outcome.next]) rfl

end Groups

theorem arrives_stopsFirst (frame : Frame) (arriving : arrives frame = true) :
    StopsFirst [frame] := by
  apply stopsFirst_of_quiet
  revert frame
  simp [forall_arrives]

theorem arrives_isJoin : ∀ frame, arrives frame = true → frame.isJoin = false := by
  simp [forall_arrives]

section Others

variable {w : World} {frame : Frame} {others : List Frame}

theorem card_fds_pos {frames : List Frame} (owns : ∃ frame ∈ frames, frame.fds ≠ 0) :
    0 < (frames.map Frame.fds).sum.card := by
  obtain ⟨frame, member, some⟩ := owns
  have le : frame.fds ≤ (frames.map Frame.fds).sum := List.single_le_sum
    (fun _ _ => zero_le) _ (List.mem_map_of_mem member)
  exact Nat.lt_of_lt_of_le (Multiset.card_pos.mpr some) (Multiset.card_le_card le)

/-- A call that stops a refresher is the only one: the descriptor is in the
same thread. -/
theorem stopsRefresher_alone (stacked : Stacked StopsFirst frame others)
    (owned : Owned w (frame ::ₘ (others : Multiset Frame)))
    (owns : frame.stopsRefresher = true ∨ frame.fds ≠ 0) :
    ∀ other ∈ others, other.stopsRefresher = false := by
  obtain ⟨rest, threads, ⟨stops, quietRest⟩, each, rfl⟩ := stacked
  have card := card_nodeFds w
  rw [owned, tally_cons, tally_coe, List.map_append, List.sum_append, Multiset.card_add,
    Multiset.card_add, Multiset.card_add] at card
  have one : 0 < frame.fds.card + (rest.map Frame.fds).sum.card := by
    rcases owns with stopping_ | some
    · have := card_fds_pos (stops stopping_)
      omega
    · have := Multiset.card_pos.mpr some
      omega
  intro other member
  rcases List.mem_append.mp member with below | elsewhere
  · exact quietRest other below
  · obtain ⟨stack, inside, member⟩ := List.mem_flatten.mp elsewhere
    cases stack with
    | nil => exact absurd member List.not_mem_nil
    | cons top below =>
        obtain ⟨owner, quietBelow⟩ := each _ inside
        rcases List.mem_cons.mp member with rfl | lower
        · by_contra stops
          rw [Bool.not_eq_false] at stops
          obtain ⟨owning, lower, some⟩ := owner stops
          have two := card_fds_pos ⟨owning,
            List.mem_flatten.mpr ⟨_, inside, List.mem_cons_of_mem _ lower⟩, some⟩
          omega
        · exact quietBelow other lower

/-- A call that is going to stop a refresher has the descriptor, or stops it. -/
theorem fds_of_willStop {other : Frame} (stops : other.willStop = true)
    (notYet : other.stopsRefresher = false) : other.fds ≠ 0 := by
  revert stops notYet
  fun_cases Frame.willStop other <;> intro stops notYet
  case case3 request stale =>
      obtain ⟨fd, is⟩ := Option.isSome_iff_exists.mp stops
      simp [is]
  case case4 ctx =>
      obtain ⟨fd, is⟩ := Option.isSome_iff_exists.mp stops
      simp [is]
  case case5 ctx =>
      obtain ⟨fd, is⟩ := Option.isSome_iff_exists.mp stops
      simp [is]
  all_goals simp_all

end Others

/-- The state of the refreshers after the actions `past`. -/
structure Refreshed (w : World) (frames : Multiset Frame) (past : List Frame) : Prop where
  current : w.tuner.heldStatsThreadStarted = true → w.tuner.heldStatsThread < w.nextHeldThread
  joined : ∀ refresher, past.countP (Frame.joins refresher) =
    if refresher < w.nextHeldThread ∧
      ¬ (w.tuner.heldStatsThreadStarted = true ∧ w.tuner.heldStatsThread = refresher) then 1 else 0
  joining : ∀ thread, .hold (.joinHeldStats thread) ∈ frames →
    w.tuner.heldStatsThreadStarted = true ∧ w.tuner.heldStatsThread = thread
  owned : w.tuner.heldStatsThreadStarted = true →
    w.tuner.heldFd.isSome = true ∨ ∃ frame ∈ frames, frame.willStop = true

section Refreshed

variable {w : World} {frame : Frame} {others : List Frame} {past : List Frame}

/-- Whoever has the descriptor, other than to stop its refresher, finds none. -/
theorem Refreshed.stopped (refreshed : Refreshed w (frame ::ₘ (others : Multiset Frame)) past)
    (stacked : Stacked StopsFirst frame others)
    (owned : Owned w (frame ::ₘ (others : Multiset Frame))) (owns : frame.fds ≠ 0)
    (goes : frame.willStop = false) : w.tuner.heldStatsThreadStarted = false := by
  by_contra started
  rw [Bool.not_eq_false] at started
  obtain ⟨record, alone⟩ := owned.alone owns
  rcases refreshed.owned started with held | ⟨other, member, stops⟩
  · obtain ⟨fd, is⟩ := Option.isSome_iff_exists.mp held
    rw [World.fds, is, add_assoc] at record
    exact fdsOf_some_add_ne_zero _ _ record
  · rcases Multiset.mem_cons.mp member with rfl | elsewhere
    · rw [goes] at stops
      cases stops
    · have inside := Multiset.mem_coe.mp elsewhere
      exact fds_of_willStop stops
        (stopsRefresher_alone stacked owned (.inr owns) other inside) (alone other inside)

theorem countP_joins_append {frame : Frame} (acts : frame.isJoin = false) (past : List Frame)
    (refresher : Nat) :
    (past ++ [frame]).countP (Frame.joins refresher) = past.countP (Frame.joins refresher) := by
  have none : frame.joins refresher = false := by
    revert acts
    fun_cases Frame.isJoin frame <;> simp
  rw [List.countP_append, List.countP_singleton, none]
  rfl

theorem isJoin_of_joinless {frames : List Frame} (none : joinless frames = true) {thread : Nat} :
    .hold (.joinHeldStats thread) ∉ frames := by
  intro member
  have absent := List.all_eq_true.mp none _ member
  cases absent

variable {outcome : Outcome}

/-- The frames after an action. -/
def framesAfter (outcome : Outcome) (others : List Frame) : Multiset Frame :=
  (outcome.frames : Multiset Frame) +
    ((outcome.spawned.flatten : List Frame) + (others : Multiset Frame))

theorem mem_framesAfter {other : Frame} :
    other ∈ framesAfter outcome others ↔ other ∈ outcome.next ∨ other ∈ others := by
  rw [framesAfter, Multiset.mem_add, Multiset.mem_add, Multiset.mem_coe, Multiset.mem_coe,
    Multiset.mem_coe, Outcome.next, List.mem_append, or_assoc]

theorem Refreshed.joining_others
    (refreshed : Refreshed w (frame ::ₘ (others : Multiset Frame)) past) {thread : Nat}
    (member : Frame.hold (.joinHeldStats thread) ∈ others) :
    w.tuner.heldStatsThreadStarted = true ∧ w.tuner.heldStatsThread = thread :=
  refreshed.joining thread (Multiset.mem_cons_of_mem (Multiset.mem_coe.mpr member))

/-- An action that leaves the refresher alone, or only tells it to stop. -/
theorem Refreshed.leaves (refreshed : Refreshed w (frame ::ₘ (others : Multiset Frame)) past)
    (same : outcome.shared.refresher = w.refresher) (acts : frame.isJoin = false)
    (joining : ∀ thread, Frame.hold (.joinHeldStats thread) ∈ outcome.next →
      w.tuner.heldStatsThreadStarted = true ∧ w.tuner.heldStatsThread = thread)
    (kept : w.tuner.heldStatsThreadStarted = true →
      w.tuner.heldFd.isSome = true ∨ frame.willStop = true →
        outcome.shared.tuner.heldFd.isSome = true ∨
          ∃ next ∈ outcome.next, next.willStop = true) :
    Refreshed outcome.shared (framesAfter outcome others) (past ++ [frame]) := by
  simp only [World.refresher, Prod.mk.injEq] at same
  obtain ⟨started, thread, count⟩ := same
  constructor
  · rw [started, thread, count]
    exact refreshed.current
  · intro refresher
    rw [countP_joins_append acts, started, thread, count]
    exact refreshed.joined refresher
  · intro joins member
    rw [started, thread]
    rcases mem_framesAfter.mp member with new | old
    · exact joining joins new
    · exact refreshed.joining_others old
  · rw [started]
    intro running
    have next : w.tuner.heldFd.isSome = true ∨ frame.willStop = true →
        outcome.shared.tuner.heldFd.isSome = true ∨
          ∃ next ∈ framesAfter outcome others, next.willStop = true := by
      intro taken
      refine (kept running taken).imp_right ?_
      rintro ⟨next, member, stops⟩
      exact ⟨next, mem_framesAfter.mpr (.inl member), stops⟩
    rcases refreshed.owned running with held | ⟨stopper, member, stops⟩
    · exact next (.inl held)
    · rcases Multiset.mem_cons.mp member with rfl | elsewhere
      · exact next (.inr stops)
      · exact .inr ⟨stopper, mem_framesAfter.mpr (.inr (Multiset.mem_coe.mp elsewhere)), stops⟩

/-- The join of the refresher that was stopped. -/
theorem Refreshed.join {thread : Nat}
    (refreshed : Refreshed w (Frame.hold (.joinHeldStats thread) ::ₘ (others : Multiset Frame)) past)
    (alone : ∀ other ∈ others, other.stopsRefresher = false)
    (same : outcome.shared.refresher = (false, w.refresher.2)) (next : outcome.next = []) :
    Refreshed outcome.shared (framesAfter outcome others)
      (past ++ [.hold (.joinHeldStats thread)]) := by
  simp only [World.refresher, Prod.mk.injEq] at same
  obtain ⟨started, -, count⟩ := same
  obtain ⟨running, rfl⟩ := refreshed.joining thread (Multiset.mem_cons_self _ _)
  constructor
  · rw [started]
    exact fun running => nomatch running
  · intro refresher
    have before := refreshed.joined refresher
    have bound := refreshed.current running
    rw [List.countP_append, List.countP_singleton, before, started, count, running]
    by_cases same : w.tuner.heldStatsThread = refresher
    · subst same
      simp [bound]
    · simp [same]
  · intro joins member
    rcases mem_framesAfter.mp member with new | old
    · rw [next] at new
      exact absurd new List.not_mem_nil
    · cases alone _ old
  · rw [started]
    exact fun running => nomatch running

/-- A hold is installed while no refresher is left of an earlier one. -/
theorem Refreshed.install (refreshed : Refreshed w (frame ::ₘ (others : Multiset Frame)) past)
    (stopped : w.tuner.heldStatsThreadStarted = false) (acts : frame.isJoin = false)
    (joins : joinless outcome.next = true)
    (installed : outcome.shared.refresher = (false, w.refresher.2) ∨
      outcome.shared.refresher = (true, w.nextHeldThread, w.nextHeldThread + 1) ∧
        outcome.shared.tuner.heldFd.isSome = true) :
    Refreshed outcome.shared (framesAfter outcome others) (past ++ [frame]) := by
  have joining : ∀ thread, Frame.hold (.joinHeldStats thread) ∈ framesAfter outcome others →
      False := by
    intro thread member
    rcases mem_framesAfter.mp member with new | old
    · exact isJoin_of_joinless joins new
    · have running := (refreshed.joining_others old).1
      rw [stopped] at running
      cases running
  simp only [World.refresher, Prod.mk.injEq] at installed
  rcases installed with ⟨started, thread, count⟩ | ⟨⟨started, thread, count⟩, held⟩
  · constructor
    · rw [started]
      exact fun running => nomatch running
    · intro refresher
      rw [countP_joins_append acts, refreshed.joined, started, thread, count, stopped]
    · exact fun thread member => (joining thread member).elim
    · rw [started]
      exact fun running => nomatch running
  · constructor
    · rw [thread, count]
      exact fun _ => Nat.lt_succ_self _
    · intro refresher
      rw [countP_joins_append acts, refreshed.joined, started, thread, count, stopped]
      by_cases newest : refresher = w.nextHeldThread
      · simp [newest]
      · have older : refresher < w.nextHeldThread + 1 ↔ refresher < w.nextHeldThread := by omega
        simp [older, Ne.symm newest]
    · exact fun thread member => (joining thread member).elim
    · exact fun _ => .inl held

theorem Refreshed.step {χ : Choice} (stacked : Stacked StopsFirst frame others)
    (owned : Owned w (frame ::ₘ (others : Multiset Frame)))
    (refreshed : Refreshed w (frame ::ₘ (others : Multiset Frame)) past)
    (acted : act w frame χ = some outcome) :
    Refreshed outcome.shared (framesAfter outcome others) (past ++ [frame]) := by
  cases act_refresherStep acted with
  | stop same next =>
      apply refreshed.leaves same rfl
      · intro thread member
        rw [next] at member
        split at member
        · rename_i running
          cases List.mem_singleton.mp member
          exact ⟨running, rfl⟩
        · exact absurd member List.not_mem_nil
      · intro running _
        refine .inr ⟨.hold (.joinHeldStats w.tuner.heldStatsThread), ?_, rfl⟩
        rw [next, if_pos running]
        exact List.mem_cons_self
  | join same next =>
      exact refreshed.join (stopsRefresher_alone stacked owned (.inl rfl)) same next
  | start started held joins =>
      have stopped := refreshed.stopped stacked owned (by simp) rfl
      exact refreshed.install stopped rfl joins (.inr ⟨started, held⟩)
  | noThread same next =>
      have stopped := refreshed.stopped stacked owned (by simp) rfl
      exact refreshed.install stopped rfl (by rw [next]; rfl) (.inl same)
  | other same acts joins kept =>
      have isJoin : frame.isJoin = false := by
        revert acts
        fun_cases Frame.isJoin frame <;> simp
      exact refreshed.leaves same isJoin
        (fun thread member => absurd member (isJoin_of_joinless joins)) (fun _ => kept)

end Refreshed

section Reachable

variable {guard : Guard World Frame Choice} {db : ChannelDb} {config : Config World Frame}
  {events : Schedule}

theorem StopsFirst.append {frames rest : List Frame} (first : StopsFirst frames)
    (none : ∀ frame ∈ rest, frame.stopsRefresher = false) : StopsFirst (frames ++ rest) := by
  cases frames with
  | nil =>
      cases rest with
      | nil => trivial
      | cons top rest =>
          rw [List.forall_mem_cons] at none
          refine ⟨fun stops => ?_, none.2⟩
          rw [none.1] at stops
          cases stops
  | cons top frames =>
      refine ⟨fun stops => ?_, List.forall_mem_append.mpr ⟨first.2, none⟩⟩
      obtain ⟨frame, member, owns⟩ := first.1 stops
      exact ⟨frame, List.mem_append_left _ member, owns⟩

theorem stopsFirst_of_reachable (reachable : machine.Reachable guard (start db) config) :
    ∀ stack ∈ config.threads, StopsFirst stack := by
  refine reachable.forall_stacks StopsFirst (fun _ member => (nomatch member))
    arrives_stopsFirst ?_
  intro w frame rest χ outcome before acted
  obtain ⟨frames, spawned⟩ := act_stopsFirst acted
  refine ⟨?_, spawned⟩
  rcases frames with first | ⟨stops, thread, joins⟩
  · exact first.append before.2
  · rw [joins]
    exact ⟨fun _ => before.1 stops, before.2⟩

theorem refreshed_of_run (ran : machine.run guard (start db) events = some config) :
    Refreshed config.shared config.frames (machine.actions guard (start db) events) := by
  refine run_invariant StopsFirst Owned Refreshed (fun _ => stopsFirst_of_reachable)
    (fun _ => nodeFds_eq) ran ?_ ?_ ?_
  · constructor
    · exact fun running => nomatch running
    · intro refresher
      rfl
    · exact fun thread member => absurd member (Multiset.notMem_zero _)
    · exact fun running => nomatch running
  · intro w frames frame past refreshed arriving
    constructor
    · exact refreshed.current
    · exact refreshed.joined
    · intro thread member
      rcases Multiset.mem_cons.mp member with rfl | old
      · have notJoin := arrives_isJoin (.hold (.joinHeldStats thread)) arriving
        cases notJoin
      · exact refreshed.joining thread old
    · intro running
      refine (refreshed.owned running).imp_right ?_
      rintro ⟨other, member, stops⟩
      exact ⟨other, Multiset.mem_cons_of_mem member, stops⟩
  · intro w frame others χ outcome past stacked owned refreshed _ acted
    exact refreshed.step stacked owned acted

end Reachable

/-- What a call closes next, it owns. -/
theorem mem_fds_of_closes {frame : Frame} {fd : Fd} (closes : frame.closes = some fd) :
    fd ∈ frame.fds := by
  revert closes
  fun_cases Frame.closes frame <;> intro closes <;> cases closes <;> simp [fdsOf, fdsIn]

theorem willStop_of_closes {frame : Frame} {fd : Fd} (closes : frame.closes = some fd) :
    frame.willStop = false := by
  revert closes
  fun_cases Frame.closes frame <;> simp

section Groups

variable {w : World} {χ : Choice} {outcome : Outcome}

/-- The node stays open, unless the action closes it or it was not open. -/
theorem act_opener {frame : Frame} (acted : act w frame χ = some outcome) :
    outcome.shared.node.opener = w.node.opener ∨ w.node.opener = none ∨
      ∃ fd, frame.closes = some fd ∧ outcome.shared.node = w.node.close fd := by
  revert acted
  cases frame with
  | hold frame =>
      simp only [act]
      fun_cases holdAct w χ frame <;> intro acted <;> cases acted
      all_goals first
        | exact .inl rfl
        | exact .inl (opener_tune _ _ _)
        | exact .inr (.inl (open?_eq_some ‹_›).1)
        | exact .inr (.inr ⟨_, rfl, rfl⟩)
  | release frame =>
      simp only [act]
      fun_cases releaseAct w χ frame <;> intro acted <;> cases acted <;> exact .inl rfl
  | claim frame =>
      simp only [act]
      fun_cases claimAct w χ frame <;> intro acted <;> cases acted
      all_goals first
        | exact .inl rfl
        | exact .inr (.inr ⟨_, rfl, rfl⟩)
  | stream frame =>
      simp only [act]
      fun_cases streamAct w χ frame <;> intro acted <;> cases acted
      all_goals first
        | exact .inl rfl
        | exact .inl (opener_tune _ _ _)
        | exact .inr (.inl (open?_eq_some ‹_›).1)
        | exact .inr (.inr ⟨_, rfl, rfl⟩)
  | push frame =>
      simp only [act]
      fun_cases pushAct w χ frame <;> intro acted <;> cases acted <;> exact .inl rfl
  | pull frame =>
      simp only [act]
      fun_cases pullAct w χ frame <;> intro acted <;> cases acted <;> exact .inl rfl
  | set frame =>
      simp only [act]
      fun_cases setAct w χ frame <;> intro acted <;> cases acted <;> exact .inl rfl
  | scan frame =>
      simp only [act]
      fun_cases scanAct w χ frame <;> intro acted <;> cases acted
      all_goals first
        | exact .inl rfl
        | exact .inl (opener_tune _ _ _)
        | exact .inr (.inl (open?_eq_some ‹_›).1)
        | exact .inr (.inr ⟨_, rfl, rfl⟩)
  | stats frame =>
      simp only [act]
      fun_cases statsAct w χ frame <;> intro acted <;> cases acted <;> exact .inl rfl

end Groups

section Reachable

variable {guard : Guard World Frame Choice} {db : ChannelDb} {config : Config World Frame}
  {events : Schedule}

/-- A call that is about to close a descriptor: it is open, and every refresher
that was ever started has been joined once. -/
theorem closes_after_join (ran : machine.run guard (start db) events = some config)
    {thread : Nat} {frame : Frame} {rest : List Frame} {fd : Fd}
    (top : config.threads[thread]? = some (frame :: rest)) (closes : frame.closes = some fd) :
    config.shared.node.opener = some fd ∧ ∀ refresher < config.shared.nextHeldThread,
      (machine.actions guard (start db) events).countP (Frame.joins refresher) = 1 := by
  have reachable : machine.Reachable guard (start db) config := ⟨events, ran⟩
  have refreshed := refreshed_of_run ran
  have owned : Owned config.shared config.frames := nodeFds_eq reachable
  have stacked : Stacked StopsFirst frame
      (rest ++ (config.threads.eraseIdx thread).flatten) :=
    ⟨rest, _, stopsFirst_of_reachable reachable _ (List.mem_of_getElem? top),
      fun stack member => stopsFirst_of_reachable reachable stack (List.mem_of_mem_eraseIdx member),
      rfl⟩
  have member := mem_fds_of_closes closes
  have owns : frame.fds ≠ 0 := fun none => Multiset.notMem_zero fd (none ▸ member)
  rw [frames_of_top top] at refreshed owned
  constructor
  · have inside : fd ∈ config.shared.nodeFds := by
      rw [owned, tally_cons]
      exact Multiset.mem_add.mpr (.inr (Multiset.mem_add.mpr (.inl member)))
    simpa [World.nodeFds, fdsOf, fdsIn] using inside
  · intro refresher started
    have stopped := refreshed.stopped stacked owned owns (willStop_of_closes closes)
    rw [refreshed.joined, stopped]
    simp [started]

/-- The open descriptor is the only one that is owned, by the tuner record or by
one call; it stays open until its owner closes it, and then every refresher that
was ever started has been joined exactly once. -/
theorem frontend_owned_until_closed (ran : machine.run guard (start db) events = some config) :
    config.shared.fds + tally Frame.fds config.frames = config.shared.nodeFds ∧
      (∀ (thread : Nat) (frame : Frame) (rest : List Frame) (fd : Fd),
        config.threads[thread]? = some (frame :: rest) → frame.closes = some fd →
          config.shared.node.opener = some fd ∧
          ∀ refresher < config.shared.nextHeldThread,
            (machine.actions guard (start db) events).countP (Frame.joins refresher) = 1) ∧
      ∀ event next fd, machine.step guard config event = some next →
        config.shared.node.opener = some fd → next.shared.node.opener = some fd ∨
          next.shared.node.opener = none ∧
            ∃ frame ∈ acting config event, frame.closes = some fd := by
  refine ⟨(nodeFds_eq ⟨events, ran⟩).symm, fun _ _ _ _ => closes_after_join ran, ?_⟩
  intro event next fd stepTo isOpen
  cases event with
  | arrive frame =>
      obtain ⟨-, shared, -⟩ := step_arrive stepTo
      exact .inl (shared ▸ isOpen)
  | act thread χ =>
      obtain ⟨frame, rest, outcome, top, -, acted, rfl⟩ := step_act_threads stepTo
      rcases act_opener acted with same | closed | ⟨closing, closes, node⟩
      · exact .inl (same.trans isOpen)
      · rw [isOpen] at closed
        cases closed
      · obtain ⟨sameFd, -⟩ := closes_after_join ran top closes
        rw [isOpen] at sameFd
        cases sameFd
        refine .inr ⟨?_, frame, by simp [acting, top], closes⟩
        rw [node, Node.close, if_pos isOpen]

end Reachable

/-- A hold, and `channel=none` up to where it closes the descriptor. -/
def holdThenNone : Schedule :=
  .arrive (.set (.vchannelSet ⟨2, 1⟩)) :: steps 0 9 ++
    .arrive (.set (.channelSet noneText)) :: steps 2 4 ++ steps 1 1 ++ steps 2 1

theorem frontend_owned_until_closed_channelNone :
    ∃ config, machine.run Guard.all (start oneStation) holdThenNone = some config ∧
      config.shared.nextHeldThread = 1 ∧ config.shared.node.opener = some 0 ∧
      (machine.actions Guard.all (start oneStation) holdThenNone).countP (Frame.joins 0) = 1 := by
  have ends : (machine.run Guard.all (start oneStation) holdThenNone).any (fun config =>
      decide ((config.threads[2]?.bind List.head?).bind Frame.closes = some 0 ∧
        config.shared.nextHeldThread = 1)) = true := by
    decide +kernel
  cases ran : machine.run Guard.all (start oneStation) holdThenNone with
  | none =>
      rw [ran] at ends
      cases ends
  | some config =>
      rw [ran, Option.any_some, decide_eq_true_iff] at ends
      obtain ⟨frame, head, closes⟩ := Option.bind_eq_some_iff.mp ends.1
      obtain ⟨stack, top, head⟩ := Option.bind_eq_some_iff.mp head
      obtain ⟨rest, rfl⟩ := List.head?_eq_some_iff.mp head
      obtain ⟨isOpen, joined⟩ :=
        (frontend_owned_until_closed ran).2.1 2 frame rest 0 top closes
      exact ⟨config, rfl, ends.2, isOpen, joined 0 (by rw [ends.2]; decide)⟩

end HdhrEmu
