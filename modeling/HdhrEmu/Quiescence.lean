import HdhrEmu.CallEffort
import HdhrEmu.HoldConsistency

/-!
# Every call can come to its end

A call waits for another thread in two places only: `stop_held_stats_thread`
and `dvb_stream_close` join a stats thread.  Whoever joins has told the thread
to stop before, nothing takes that back while it waits, and the thread is still
there; so it can return.  All calls of a tuner can therefore be run to their
end from every state that is ever reached, and what they leave behind is a
tuner that the next client can claim.
-/

namespace HdhrEmu

open Interleaving Interleaving.Machine

/-- The call of a thread that waits for a stats thread of a stream. -/
@[simp]
def Frame.isStreamJoin : Frame → Bool
  | .release (.streamJoin _ _) => true
  | _ => false

/-- Nothing in a list is part of a stats thread, or waits for one of a stream. -/
def unattached (frames : List Frame) : Bool :=
  frames.all fun frame => !frame.isStats && !frame.isStreamJoin

@[simp]
theorem unattached_nil : unattached [] = true :=
  rfl

@[simp]
theorem unattached_cons (frame : Frame) (frames : List Frame) :
    unattached (frame :: frames) =
      ((!frame.isStats && !frame.isStreamJoin) && unattached frames) :=
  rfl

@[simp]
theorem unattached_stopping (held : Option Fd) (frames : List Frame) :
    unattached (stopping held frames) = unattached frames := by
  cases held <;> rfl

@[simp]
theorem unattached_granted (granted : Granted) : unattached granted.frames = true := by
  rcases granted with ⟨_ | _, _⟩ | _ <;> rfl

@[simp]
theorem unattached_claimTimedOut (db : ChannelDb) (who : Claimant) :
    unattached (who.claimTimedOut db) = true := by
  rcases who with ⟨_ | _, _⟩ | _ <;> rfl

@[simp]
theorem unattached_openFailed (who : Streamer) : unattached who.openFailed = true := by
  cases who <;> rfl

@[simp]
theorem unattached_opened (who : Streamer) (ds : DvbStream) : unattached (who.opened ds) = true := by
  cases who <;> rfl

/-- The stack of a stats thread, or one without any part of a stats thread. -/
def StatsApart (stack : List Frame) : Prop :=
  (∃ frame, stack = [.stats frame]) ∨ ∀ frame ∈ stack, frame.isStats = false

theorem isStats_of_unattached {frames : List Frame} (none : unattached frames = true) :
    ∀ frame ∈ frames, frame.isStats = false := by
  intro frame member
  have apart := List.all_eq_true.mp none frame member
  rw [Bool.and_eq_true, Bool.not_eq_true'] at apart
  exact apart.1

section Stacks

variable {w : World} {χ : Choice} {outcome : Outcome}

/-- A call leaves calls, only a teardown leaves the join of a stream, and the
threads that are started are calls or stats threads. -/
inductive LeavesApart (w : World) (frame : Frame) (outcome : Outcome) : Prop
  | calls (left : unattached outcome.frames = true)
      (spawned : ∀ stack ∈ outcome.spawned, (∃ reader, stack = [.stats reader]) ∨
        unattached stack = true)
  | joins (ds : DvbStream) (keepFrontend : Bool)
      (was : frame = .release (.streamTeardown ds keepFrontend))
      (is : outcome = ⟨w.stopStream ds, [.release (.streamJoin ds keepFrontend)], []⟩)

theorem act_leavesApart {frame : Frame} (works : frame.isStats = false)
    (acted : act w frame χ = some outcome) : LeavesApart w frame outcome := by
  revert acted
  cases frame with
  | hold frame =>
      simp only [act]
      fun_cases holdAct w χ frame <;> intro acted <;> cases acted <;>
        exact .calls (by simp) (by simp)
  | release frame =>
      simp only [act]
      fun_cases releaseAct w χ frame <;> intro acted <;> cases acted
      case case3.refl => exact .joins _ _ rfl rfl
      all_goals exact .calls (by simp) (by simp)
  | claim frame =>
      simp only [act]
      fun_cases claimAct w χ frame <;> intro acted <;> cases acted <;>
        exact .calls (by simp) (by simp)
  | stream frame =>
      simp only [act]
      fun_cases streamAct w χ frame <;> intro acted <;> cases acted <;>
        exact .calls (by simp) (by simp)
  | push frame =>
      simp only [act]
      fun_cases pushAct w χ frame <;> intro acted <;> cases acted <;>
        exact .calls (by simp) (by simp)
  | pull frame =>
      simp only [act]
      fun_cases pullAct w χ frame <;> intro acted <;> cases acted <;>
        exact .calls (by simp) (by simp)
  | set frame =>
      simp only [act]
      fun_cases setAct w χ frame <;> intro acted <;> cases acted <;>
        exact .calls (by simp) (by simp)
  | scan frame =>
      simp only [act]
      fun_cases scanAct w χ frame <;> intro acted <;> cases acted <;>
        exact .calls (by simp) (by simp)
  | stats frame => cases works

theorem statsAct_stack {frame : StatsFrame} (acted : statsAct w χ frame = some outcome) :
    (outcome.frames = [] ∨ ∃ reader, outcome.frames = [.stats reader]) ∧ outcome.spawned = [] := by
  revert acted
  fun_cases statsAct w χ frame <;> intro acted <;> cases acted <;> simp

end Stacks

theorem arrives_isStats : ∀ frame, arrives frame = true → frame.isStats = false := by
  simp [forall_arrives]

section Reachable

variable {guard : Guard World Frame Choice} {db : ChannelDb} {config : Config World Frame}

theorem statsApart_of_reachable (reachable : machine.Reachable guard (start db) config) :
    ∀ stack ∈ config.threads, StatsApart stack := by
  refine reachable.forall_stacks StatsApart (fun _ member => (nomatch member)) ?_ ?_
  · intro frame arriving
    exact .inr (List.forall_mem_singleton.mpr (arrives_isStats frame arriving))
  · intro w frame rest χ outcome before acted
    rcases before with ⟨reader, alone⟩ | working
    · cases alone
      obtain ⟨left, none⟩ := statsAct_stack acted
      rw [List.append_nil, none]
      refine ⟨?_, fun _ member => (nomatch member)⟩
      rcases left with empty | ⟨reader, goesOn⟩
      · exact .inr (by rw [empty]; exact fun _ member => (nomatch member))
      · exact .inl ⟨reader, goesOn⟩
    · obtain ⟨works, below⟩ := List.forall_mem_cons.mp working
      cases act_leavesApart works acted with
      | calls left spawned =>
          refine ⟨.inr (List.forall_mem_append.mpr ⟨isStats_of_unattached left, below⟩), ?_⟩
          intro stack member
          exact (spawned stack member).imp_right isStats_of_unattached
      | joins ds keepFrontend was is =>
          subst is
          exact ⟨.inr (List.forall_mem_cons.mpr ⟨rfl, below⟩), fun _ member => (nomatch member)⟩

/-- A part of a stats thread is the whole stack of its thread. -/
theorem mem_threads_of_isStats (reachable : machine.Reachable guard (start db) config)
    {frame : Frame} (member : frame ∈ config.frames) (stats : frame.isStats = true) :
    [frame] ∈ config.threads := by
  obtain ⟨stack, inside, among⟩ := List.mem_flatten.mp (Multiset.mem_coe.mp member)
  rcases statsApart_of_reachable reachable stack inside with ⟨reader, rfl⟩ | working
  · rw [List.mem_singleton.mp among]
    exact inside
  · rw [working frame among] at stats
    cases stats

end Reachable

section Refreshers

variable {w : World} {χ : Choice} {outcome : Outcome} {frame : Frame} {others : List Frame}

/-- Only the installation of a hold takes back the request to stop. -/
theorem act_stopRequested (acted : act w frame χ = some outcome)
    (stopped : w.tuner.heldStatsStopRequested = true) :
    outcome.shared.tuner.heldStatsStopRequested = true ∨
      ∃ fd, frame = .hold (.installHoldFd [] fd) := by
  revert acted
  cases frame with
  | hold frame =>
      simp only [act]
      fun_cases holdAct w χ frame <;> intro acted <;> cases acted <;> simp [stopped]
  | release frame =>
      simp only [act]
      fun_cases releaseAct w χ frame <;> intro acted <;> cases acted <;> simp [stopped]
  | claim frame =>
      simp only [act]
      fun_cases claimAct w χ frame <;> intro acted <;> cases acted <;> simp [stopped]
  | stream frame =>
      simp only [act]
      fun_cases streamAct w χ frame <;> intro acted <;> cases acted <;> simp [stopped]
  | push frame =>
      simp only [act]
      fun_cases pushAct w χ frame <;> intro acted <;> cases acted <;> simp [stopped]
  | pull frame =>
      simp only [act]
      fun_cases pullAct w χ frame <;> intro acted <;> cases acted <;> simp [stopped]
  | set frame =>
      simp only [act]
      fun_cases setAct w χ frame <;> intro acted <;> cases acted <;> simp [stopped]
  | scan frame =>
      simp only [act]
      fun_cases scanAct w χ frame <;> intro acted <;> cases acted <;> simp [stopped]
  | stats frame =>
      simp only [act]
      fun_cases statsAct w χ frame <;> intro acted <;> cases acted <;> simp [stopped]

/-- A refresher that is joined was told to stop, and one that has not returned
is still one of the threads. -/
structure HeldJoins (w : World) (frames : Multiset Frame) : Prop where
  stopped : ∀ thread, .hold (.joinHeldStats thread) ∈ frames →
    w.tuner.heldStatsStopRequested = true
  running : ∀ thread ∈ w.heldThreads, thread ∈ tally Frame.refresher frames

theorem mem_refresher_after {thread : Nat} :
    thread ∈ tally Frame.refresher (framesAfter outcome others) ↔
      thread ∈ (outcome.next.map Frame.refresher).sum ∨
        thread ∈ tally Frame.refresher (others : Multiset Frame) := by
  rw [tally_framesAfter, Multiset.mem_add]

theorem HeldJoins.running_step (joins : HeldJoins w (frame ::ₘ (others : Multiset Frame)))
    (acted : act w frame χ = some outcome) :
    ∀ thread ∈ outcome.shared.heldThreads,
      thread ∈ tally Frame.refresher (framesAfter outcome others) := by
  intro thread member
  have before (old : thread ∈ w.heldThreads) :
      thread ∈ frame.refresher ∨ thread ∈ tally Frame.refresher (others : Multiset Frame) := by
    have among := joins.running thread old
    rwa [tally_cons, Multiset.mem_add] at among
  rw [mem_refresher_after]
  cases act_heldStep acted with
  | kept reader refresher threads cache held =>
      rw [reader]
      exact before (threads ▸ member)
  | installed started reader refresher threads empty =>
      cases started with
      | false =>
          rw [reader]
          rw [threads] at member
          exact (before member).imp_left fun none => absurd none (Multiset.notMem_zero _)
      | true =>
          rw [reader]
          rw [threads] at member
          rcases List.mem_cons.mp member with rfl | old
          · exact .inl (Multiset.mem_singleton_self _)
          · exact (before old).imp_left fun none => absurd none (Multiset.notMem_zero _)
  | joined returned same next =>
      rw [same] at member
      exact (before member).imp_left fun none => absurd none (Multiset.notMem_zero _)
  | published same next =>
      rw [same] at member
      rw [next]
      exact before member
  | returned was returns =>
      cases returns
      obtain ⟨old, other⟩ := List.mem_filter.mp member
      refine (before old).imp_left fun own => ?_
      rw [was, Multiset.mem_singleton] at own
      exact absurd own (by simpa using other)

theorem HeldJoins.stopped_step {past : List Frame} (stacked : Stacked StopsFirst frame others)
    (owned : Owned w (frame ::ₘ (others : Multiset Frame)))
    (refreshed : Refreshed w (frame ::ₘ (others : Multiset Frame)) past)
    (joins : HeldJoins w (frame ::ₘ (others : Multiset Frame)))
    (acted : act w frame χ = some outcome) {thread : Nat}
    (member : .hold (.joinHeldStats thread) ∈ framesAfter outcome others) :
    outcome.shared.tuner.heldStatsStopRequested = true := by
  have kept (old : Frame.hold (.joinHeldStats thread) ∈ others) :
      outcome.shared.tuner.heldStatsStopRequested = true := by
    have requested := joins.stopped thread
      (Multiset.mem_cons_of_mem (Multiset.mem_coe.mpr old))
    rcases act_stopRequested acted requested with stays | ⟨fd, rfl⟩
    · exact stays
    · have none := refreshed.stopped stacked owned (by simp) rfl
      rw [(refreshed.joining_others old).1] at none
      cases none
  rcases mem_framesAfter.mp member with new | old
  · cases act_refresherStep acted with
    | stop same next =>
        simp only [act, holdAct] at acted
        split at acted <;> cases acted <;> rfl
    | join same next =>
        rw [next] at new
        exact absurd new List.not_mem_nil
    | start started held joins => exact absurd new (isJoin_of_joinless joins)
    | noThread same next =>
        rw [next] at new
        exact absurd new List.not_mem_nil
    | other same acts joins kept => exact absurd new (isJoin_of_joinless joins)
  · exact kept old

end Refreshers

theorem heldJoins_of_reachable {guard : Guard World Frame Choice} {db : ChannelDb}
    {config : Config World Frame} (reachable : machine.Reachable guard (start db) config) :
    HeldJoins config.shared config.frames := by
  refine reachable.invariant_of_stacks StopsFirst
    (fun w frames => Owned w frames ∧ ∃ past, Refreshed w frames past) HeldJoins
    (fun _ => stopsFirst_of_reachable)
    (fun _ reached => ⟨nodeFds_eq reached, reached.imp' _ fun _ => refreshed_of_run⟩) ?_ ?_ ?_
  · constructor
    · exact fun _ member => absurd member (Multiset.notMem_zero _)
    · exact fun _ member => nomatch member
  · intro w frames frame joins arriving
    constructor
    · intro thread member
      rcases Multiset.mem_cons.mp member with rfl | old
      · cases arriving
      · exact joins.stopped thread old
    · intro thread member
      rw [tally_cons, arrives_refresher frame arriving, zero_add]
      exact joins.running thread member
  · rintro w frame others χ outcome stacked ⟨owned, past, refreshed⟩ joins _ acted
    exact ⟨fun _ => joins.stopped_step stacked owned refreshed acted, joins.running_step acted⟩

/-- The streams that are open exist, the one that is joined was told to stop,
and a stats thread that has not returned is still one of the threads. -/
structure StreamJoins (w : World) (frames : Multiset Frame) : Prop where
  known : ∀ ds ∈ openStreams w frames, ds.id < w.streams.length
  stopped : ∀ ds keepFrontend, .release (.streamJoin ds keepFrontend) ∈ frames →
    w.streamStopped ds = true
  running : ∀ ds ∈ openStreams w frames, w.statsRunning ds = true → ds ∈ tally Frame.reader frames

section Streams

variable {w : World} {χ : Choice} {outcome : Outcome} {frame : Frame} {others : List Frame}

theorem streamStopped_modify {after : World} {index : Nat} {f : StreamCell → StreamCell}
    (streams : after.streams = w.streams.modify index f)
    (kept : ∀ cell, cell.stopped = true → (f cell).stopped = true) {ds : DvbStream}
    (stopped : w.streamStopped ds = true) : after.streamStopped ds = true := by
  rw [World.streamStopped] at stopped ⊢
  rw [streams, List.getElem?_modify]
  cases found : w.streams[ds.id]? with
  | none => rfl
  | some cell =>
      rw [found] at stopped
      by_cases same : index = ds.id
      · simpa [same] using kept cell stopped
      · simpa [same] using stopped

/-- A join was in its stack before, or follows the teardown of its stream. -/
theorem join_of_framesAfter (acted : act w frame χ = some outcome) {ds : DvbStream}
    {keepFrontend : Bool}
    (member : .release (.streamJoin ds keepFrontend) ∈ framesAfter outcome others) :
    .release (.streamJoin ds keepFrontend) ∈ others ∨
      frame = .release (.streamTeardown ds keepFrontend) ∧
        outcome = ⟨w.stopStream ds, [.release (.streamJoin ds keepFrontend)], []⟩ := by
  rcases mem_framesAfter.mp member with new | old
  · right
    have apart {frames : List Frame} (none : unattached frames = true) :
        Frame.release (.streamJoin ds keepFrontend) ∉ frames := by
      intro among
      have attached := List.all_eq_true.mp none _ among
      cases attached
    cases works : frame.isStats with
    | true =>
        cases frame with
        | stats frame =>
            obtain ⟨left, none⟩ := statsAct_stack acted
            rw [Outcome.next, none, List.flatten_nil, List.append_nil] at new
            rcases left with empty | ⟨reader, goesOn⟩
            · rw [empty] at new
              exact absurd new List.not_mem_nil
            · rw [goesOn, List.mem_singleton] at new
              cases new
        | _ => cases works
    | false =>
        cases act_leavesApart works acted with
        | calls left spawned =>
            rcases List.mem_append.mp new with among | started
            · exact absurd among (apart left)
            · obtain ⟨stack, inside, among⟩ := List.mem_flatten.mp started
              rcases spawned stack inside with ⟨reader, rfl⟩ | none
              · cases List.mem_singleton.mp among
              · exact absurd among (apart none)
        | joins other keep was is =>
            subst is
            simp only [Outcome.next, List.flatten_nil, List.append_nil, List.mem_singleton,
              Frame.release.injEq, ReleaseFrame.streamJoin.injEq] at new
            obtain ⟨rfl, rfl⟩ := new
            exact ⟨was, rfl⟩
  · exact .inl old

theorem streams_of_published {ds : DvbStream} {reading : Reading}
    (published : outcome.shared = w.publishStreamStats ds reading) :
    outcome.shared.streams = w.streams.modify ds.id fun cell =>
      { cell with statsCache := reading, statsCacheValid := true } := by
  rw [published]
  rfl

/-- Streams are only added, and one that was told to stop stays stopped. -/
theorem StreamStep.grows (step : StreamStep w frame outcome) :
    w.streams.length ≤ outcome.shared.streams.length ∧
      ∀ ds, ds.id < w.streams.length → w.streamStopped ds = true →
        outcome.shared.streamStopped ds = true := by
  have same (streams : outcome.shared.streams = w.streams) :
      w.streams.length ≤ outcome.shared.streams.length ∧
        ∀ ds, ds.id < w.streams.length → w.streamStopped ds = true →
          outcome.shared.streamStopped ds = true := by
    unfold World.streamStopped
    rw [streams]
    exact ⟨Nat.le_refl _, fun _ _ stopped => stopped⟩
  have modified {index : Nat} {f : StreamCell → StreamCell}
      (streams : outcome.shared.streams = w.streams.modify index f)
      (kept : ∀ cell, cell.stopped = true → (f cell).stopped = true) :
      w.streams.length ≤ outcome.shared.streams.length ∧
        ∀ ds, ds.id < w.streams.length → w.streamStopped ds = true →
          outcome.shared.streamStopped ds = true := by
    refine ⟨?_, fun ds _ => streamStopped_modify streams kept⟩
    rw [streams, List.length_modify]
  cases step with
  | kept streams reader opened => exact same streams
  | opened who fd started was streams reader opened =>
      refine ⟨?_, fun ds inside stopped => ?_⟩
      · rw [streams, List.length_append]
        exact Nat.le_add_right _ _
      · rw [World.streamStopped] at stopped ⊢
        rwa [streams, List.getElem?_append_left inside]
  | stopped ds keepFrontend was streams reader opened => exact modified streams fun _ _ => rfl
  | joined ds keepFrontend was returned streams reader opened => exact same streams
  | published ds reading was streams next =>
      exact modified (streams_of_published streams) fun _ stopped => stopped
  | returned ds was returns =>
      cases returns
      exact modified rfl fun _ stopped => stopped

/-- A stream that is open was open before, or was opened just now. -/
theorem StreamStep.openStreams (step : StreamStep w frame outcome) {ds : DvbStream}
    (isOpen : ds ∈ openStreams outcome.shared (framesAfter outcome others)) :
    ds ∈ HdhrEmu.openStreams w (frame ::ₘ (others : Multiset Frame)) ∨
      ds.id = w.streams.length ∧ outcome.shared.streams.length = w.streams.length + 1 := by
  have before (opened : KeepsOpen w frame.opened outcome) :
      ds ∈ HdhrEmu.openStreams w (frame ::ₘ (others : Multiset Frame)) := by
    rwa [openStreams_after opened, ← openStreams_cons] at isOpen
  cases step with
  | kept streams reader opened => exact .inl (before opened)
  | opened who fd started was streams reader opened =>
      rw [openStreams_after opened, Multiset.mem_add, Multiset.mem_add] at isOpen
      rcases isOpen with (active | new) | held
      · refine .inl ?_
        rw [openStreams_cons]
        exact Multiset.mem_add.mpr (.inl (Multiset.mem_add.mpr (.inl active)))
      · cases mem_streamOf.mp new
        exact .inr ⟨rfl, by rw [streams, List.length_append, List.length_singleton]⟩
      · refine .inl ?_
        rw [openStreams_cons]
        exact Multiset.mem_add.mpr (.inr held)
  | stopped other keepFrontend was streams reader opened => exact .inl (before opened)
  | joined other keepFrontend was returned streams reader opened =>
      rw [openStreams_after opened, add_zero, Multiset.mem_add] at isOpen
      refine .inl ?_
      rw [openStreams_cons]
      rcases isOpen with active | held
      · exact Multiset.mem_add.mpr (.inl (Multiset.mem_add.mpr (.inl active)))
      · exact Multiset.mem_add.mpr (.inr held)
  | published other reading was streams next =>
      subst was
      refine .inl (before ?_)
      rw [KeepsOpen, next, streams]
      rfl
  | returned other was returns =>
      have idle : frame.opened = 0 := by
        revert was
        fun_cases Frame.reader frame <;> intro was
        · rfl
        · rfl
        · rfl
        · simp [streamOf] at was
      cases returns
      refine .inl (before ?_)
      rw [KeepsOpen, idle]
      rfl

theorem mem_reader_after {ds : DvbStream} :
    ds ∈ tally Frame.reader (framesAfter outcome others) ↔
      ds ∈ (outcome.next.map Frame.reader).sum ∨
        ds ∈ tally Frame.reader (others : Multiset Frame) := by
  rw [tally_framesAfter, Multiset.mem_add]

/-- A stats thread that runs after an action is one of the threads then. -/
theorem StreamJoins.running_step (joins : StreamJoins w (frame ::ₘ (others : Multiset Frame)))
    (step : StreamStep w frame outcome) {ds : DvbStream}
    (isOpen : ds ∈ openStreams outcome.shared (framesAfter outcome others))
    (runs : outcome.shared.statsRunning ds = true) :
    ds ∈ tally Frame.reader (framesAfter outcome others) := by
  have before (old : ds ∈ openStreams w (frame ::ₘ (others : Multiset Frame)))
      (ran : w.statsRunning ds = true) :
      ds ∈ frame.reader ∨ ds ∈ tally Frame.reader (others : Multiset Frame) := by
    have among := joins.running ds old ran
    rwa [tally_cons, Multiset.mem_add] at among
  have none {p : Prop} (never : ds ∈ (0 : Multiset DvbStream)) : p :=
    absurd never (Multiset.notMem_zero _)
  rw [mem_reader_after]
  have origin := step.openStreams isOpen
  cases step with
  | kept streams reader opened =>
      rw [reader]
      rw [World.statsRunning, streams] at runs
      rcases origin with old | ⟨-, longer⟩
      · exact before old runs
      · rw [streams] at longer
        omega
  | opened who fd started was streams reader opened =>
      subst was
      rcases origin with old | ⟨new, -⟩
      · rw [World.statsRunning, streams, List.getElem?_append_left (joins.known ds old)] at runs
        exact (before old runs).imp_left none
      · rw [openStreams_after opened, Multiset.mem_add, Multiset.mem_add] at isOpen
        have newest : ds = w.newStream fd started := by
          rcases isOpen with (active | added) | held
          · have old := joins.known ds (by
              rw [openStreams_cons]
              exact Multiset.mem_add.mpr (.inl (Multiset.mem_add.mpr (.inl active))))
            omega
          · exact (Option.some.inj (mem_streamOf.mp added)).symm
          · have old := joins.known ds (by
              rw [openStreams_cons]
              exact Multiset.mem_add.mpr (.inr held))
            omega
        subst newest
        rw [reader]
        cases started with
        | false => cases runs
        | true => exact .inl (mem_streamOf.mpr rfl)
  | stopped other keepFrontend was streams reader opened =>
      subst was
      rcases origin with old | ⟨-, longer⟩
      · rw [statsRunning_modify streams fun _ => rfl] at runs
        exact (before old runs).imp_left none
      · rw [streams, World.stopStream, List.length_modify] at longer
        omega
  | joined other keepFrontend was returned streams reader opened =>
      subst was
      rw [World.statsRunning, streams] at runs
      rcases origin with old | ⟨-, longer⟩
      · exact (before old runs).imp_left none
      · rw [streams] at longer
        omega
  | published other reading was streams next =>
      subst was
      rcases origin with old | ⟨-, longer⟩
      · rw [statsRunning_modify (streams_of_published streams) fun _ => rfl] at runs
        rw [next]
        exact before old runs
      · rw [streams, World.publishStreamStats, List.length_modify] at longer
        omega
  | returned other was returns =>
      cases returns
      rcases origin with old | ⟨-, longer⟩
      · rw [World.statsRunning, List.getElem?_modify] at runs
        by_cases same : other.id = ds.id
        · cases found : w.streams[ds.id]? <;> simp [found, same] at runs
        · simp only [if_neg same, Option.map_eq_map, Option.map_id_fun', id_eq] at runs
          refine (before old runs).imp_left fun own => ?_
          rw [was] at own
          cases mem_streamOf.mp own
          exact absurd rfl same
      · rw [List.length_modify] at longer
        omega

theorem StreamJoins.step (joins : StreamJoins w (frame ::ₘ (others : Multiset Frame)))
    (idle : frame.claims = 1 → frame.streams = 0 → w.tuner.activeStream = none)
    (acted : act w frame χ = some outcome) :
    StreamJoins outcome.shared (framesAfter outcome others) := by
  have step := act_streamStep idle acted
  obtain ⟨longer, stays⟩ := step.grows
  constructor
  · intro ds isOpen
    rcases step.openStreams isOpen with old | ⟨new, length⟩
    · exact Nat.lt_of_lt_of_le (joins.known ds old) longer
    · omega
  · intro ds keepFrontend member
    rcases join_of_framesAfter acted member with old | ⟨rfl, rfl⟩
    · have inside : ds ∈ openStreams w (frame ::ₘ (others : Multiset Frame)) := by
        rw [openStreams_cons]
        refine Multiset.mem_add.mpr (.inr (mem_tally.mpr ⟨_, Multiset.mem_coe.mpr old, ?_⟩))
        exact mem_streamOf.mpr rfl
      exact stays ds (joins.known ds inside)
        (joins.stopped ds keepFrontend (Multiset.mem_cons_of_mem (Multiset.mem_coe.mpr old)))
    · rw [World.streamStopped, World.stopStream, List.getElem?_modify]
      cases w.streams[ds.id]? <;> simp
  · intro ds isOpen runs
    exact joins.running_step step isOpen runs

end Streams

theorem streamJoins_of_reachable {guard : Guard World Frame Choice} {db : ChannelDb}
    {config : Config World Frame} (reachable : machine.Reachable guard (start db) config) :
    StreamJoins config.shared config.frames := by
  refine reachable.invariant_of_known StreamContext StreamJoins
    (fun _ => streamContext_of_reachable) ?_ ?_ ?_
  · constructor
    · exact fun _ isOpen => absurd isOpen (Multiset.notMem_zero _)
    · exact fun _ _ member => absurd member (Multiset.notMem_zero _)
    · exact fun _ isOpen => absurd isOpen (Multiset.notMem_zero _)
  · intro w frames frame joins arriving
    have sameOpen : openStreams w (frame ::ₘ frames) = openStreams w frames := by
      rw [openStreams, openStreams, tally_cons, arrives_opened frame arriving, zero_add]
    constructor
    · rw [sameOpen]
      exact joins.known
    · intro ds keepFrontend member
      rcases Multiset.mem_cons.mp member with rfl | old
      · cases arriving
      · exact joins.stopped ds keepFrontend old
    · rw [sameOpen, tally_cons, arrives_reader frame arriving, zero_add]
      exact joins.running
  · intro w frame others χ outcome context joins _ acted
    exact joins.step (idle_of_claims context.claimed context.streaming) acted

/-- The timer of a parked descriptor. -/
@[simp]
def Frame.expires : Frame → Option UInt32
  | .release (.parkSpawn generation) | .release (.parkExpiry generation) => some generation
  | _ => none

/-- The waiting of `tuner_try_claim_wait`. -/
@[simp]
def Frame.waitsForClaim : Frame → Nat
  | .claim (.tunerTryClaimWaiting _) => 1
  | _ => 0

/-- The generation of a push thread that has not returned. -/
def PushRole.generation : PushRole → Option UInt32
  | .pushing ctx | .ending ctx | .done ctx => some ctx.generation
  | _ => none

def Frame.pushGeneration (frame : Frame) : Option UInt32 :=
  frame.role.bind PushRole.generation

section Records

variable {w : World} {χ : Choice} {outcome : Outcome}

/-- A descriptor that stays parked has its timer, or gets one. -/
def KeepsParked (w : World) (expires : Option UInt32) (outcome : Outcome) : Prop :=
  outcome.shared.tuner.parkedFd.isSome = true →
    (∃ next ∈ outcome.next, next.expires = some outcome.shared.tuner.parkGeneration) ∨
      w.tuner.parkedFd.isSome = true ∧
        outcome.shared.tuner.parkGeneration = w.tuner.parkGeneration ∧
        expires ≠ some w.tuner.parkGeneration

/-- The call has no timer, and leaves the parked descriptor or takes it away. -/
theorem KeepsParked.kept {frame : Frame}
    (parked : outcome.shared.tuner.parkedFd = none ∨
      outcome.shared.tuner.parkedFd = w.tuner.parkedFd)
    (generation : outcome.shared.tuner.parkGeneration = w.tuner.parkGeneration)
    (timer : frame.expires = none) : KeepsParked w frame.expires outcome := by
  intro stays
  rcases parked with taken | same
  · rw [taken] at stays
    cases stays
  · rw [timer]
    exact .inr ⟨same ▸ stays, generation, (Option.some_ne_none _).symm⟩

theorem releaseAct_parked {frame : ReleaseFrame} (acted : releaseAct w χ frame = some outcome) :
    KeepsParked w (Frame.release frame).expires outcome := by
  revert acted
  fun_cases releaseAct w χ frame <;> intro acted <;> cases acted
  case case13.refl fd _ =>
      exact fun _ => .inl ⟨.release (.parkSpawn (w.tuner.parkGeneration + 1)),
        List.mem_cons_self, rfl⟩
  case case14.refl fd _ =>
      exact .kept (.inr rfl) rfl rfl
  case case15.refl generation _ | case16.refl generation _ =>
      intro parked
      by_cases current : generation = w.tuner.parkGeneration
      · exact .inl ⟨.release (.parkExpiry generation), List.mem_cons_self, congrArg some current⟩
      · exact .inr ⟨parked, rfl, fun same => current (Option.some.inj same)⟩
  case case17.refl generation fd found | case18.refl generation found =>
      intro parked
      by_cases current : w.tuner.parkGeneration = generation
      · rw [Tuner.parkExpire, if_pos current] at parked
        cases parked
      · rw [Tuner.parkExpire, if_neg current] at parked ⊢
        exact .inr ⟨parked, rfl, fun same => current (Option.some.inj same).symm⟩
  all_goals exact .kept (.inr rfl) rfl rfl

theorem act_parked {frame : Frame} (acted : act w frame χ = some outcome) :
    KeepsParked w frame.expires outcome := by
  revert acted
  cases frame with
  | hold frame =>
      simp only [act]
      fun_cases holdAct w χ frame <;> intro acted <;> cases acted <;>
        exact .kept (by simp) (by simp) rfl
  | release frame => exact releaseAct_parked
  | claim frame =>
      simp only [act]
      fun_cases claimAct w χ frame <;> intro acted <;> cases acted <;>
        exact .kept (by simp) (by simp) rfl
  | stream frame =>
      simp only [act]
      fun_cases streamAct w χ frame <;> intro acted <;> cases acted <;>
        exact .kept (.inr rfl) rfl rfl
  | push frame =>
      simp only [act]
      fun_cases pushAct w χ frame <;> intro acted <;> cases acted <;>
        exact .kept (by simp) (by simp) rfl
  | pull frame =>
      simp only [act]
      fun_cases pullAct w χ frame <;> intro acted <;> cases acted <;>
        exact .kept (by simp) (by simp) rfl
  | set frame =>
      simp only [act]
      fun_cases setAct w χ frame <;> intro acted <;> cases acted <;>
        exact .kept (by simp) (by simp) rfl
  | scan frame =>
      simp only [act]
      fun_cases scanAct w χ frame <;> intro acted <;> cases acted <;>
        exact .kept (by simp) (by simp) rfl
  | stats frame =>
      simp only [act]
      fun_cases statsAct w χ frame <;> intro acted <;> cases acted <;>
        exact .kept (.inr rfl) rfl rfl

/-- The waiters are counted. -/
def KeepsWaiters (w : World) (waits : Nat) (outcome : Outcome) : Prop :=
  outcome.shared.tuner.claimWaiters + waits = w.tuner.claimWaiters +
    ((outcome.frames.map Frame.waitsForClaim).sum +
      (outcome.spawned.flatten.map Frame.waitsForClaim).sum)

@[simp]
theorem waitsForClaim_stopping (held : Option Fd) (frames : List Frame) :
    ((stopping held frames).map Frame.waitsForClaim).sum =
      (frames.map Frame.waitsForClaim).sum := by
  cases held <;> simp [stopping]

@[simp]
theorem waitsForClaim_granted (granted : Granted) :
    (granted.frames.map Frame.waitsForClaim).sum = 0 := by
  rcases granted with ⟨_ | _, _⟩ | _ <;> rfl

@[simp]
theorem waitsForClaim_claimTimedOut (db : ChannelDb) (who : Claimant) :
    ((who.claimTimedOut db).map Frame.waitsForClaim).sum = 0 := by
  rcases who with ⟨_ | _, _⟩ | _ <;> rfl

@[simp]
theorem waitsForClaim_openFailed (who : Streamer) :
    (who.openFailed.map Frame.waitsForClaim).sum = 0 := by
  cases who <;> rfl

@[simp]
theorem waitsForClaim_opened (who : Streamer) (ds : DvbStream) :
    ((who.opened ds).map Frame.waitsForClaim).sum = 0 := by
  cases who <;> rfl

theorem act_waiters {frame : Frame} (covered : frame.waitsForClaim ≤ w.tuner.claimWaiters)
    (acted : act w frame χ = some outcome) : KeepsWaiters w frame.waitsForClaim outcome := by
  revert acted
  cases frame with
  | hold frame =>
      simp only [act]
      fun_cases holdAct w χ frame <;> intro acted <;> cases acted <;> simp [KeepsWaiters]
  | release frame =>
      simp only [act]
      have expire (generation : UInt32) :
          (w.tuner.parkExpire generation).claimWaiters = w.tuner.claimWaiters := by
        unfold Tuner.parkExpire
        split <;> rfl
      fun_cases releaseAct w χ frame <;> intro acted <;> cases acted <;>
        simp [KeepsWaiters, expire, Tuner.parkInstall]
  | claim frame =>
      simp only [act]
      fun_cases claimAct w χ frame <;> intro acted <;> cases acted <;> simp_all [KeepsWaiters]
  | stream frame =>
      simp only [act]
      fun_cases streamAct w χ frame <;> intro acted <;> cases acted <;> simp [KeepsWaiters]
  | push frame =>
      simp only [act]
      fun_cases pushAct w χ frame <;> intro acted <;> cases acted <;> simp [KeepsWaiters]
  | pull frame =>
      simp only [act]
      fun_cases pullAct w χ frame <;> intro acted <;> cases acted <;> simp [KeepsWaiters]
  | set frame =>
      simp only [act]
      fun_cases setAct w χ frame <;> intro acted <;> cases acted <;> simp [KeepsWaiters]
  | scan frame =>
      simp only [act]
      fun_cases scanAct w χ frame <;> intro acted <;> cases acted <;> simp [KeepsWaiters]
  | stats frame =>
      simp only [act]
      fun_cases statsAct w χ frame <;> intro acted <;> cases acted <;> simp [KeepsWaiters]

/-- The push that is active has a thread that is going to say when it is done. -/
def KeepsPushing (w : World) (generation : Option UInt32) (outcome : Outcome) : Prop :=
  outcome.shared.tuner.udpPushActive = true →
    (∃ next ∈ outcome.next,
        next.pushGeneration = some outcome.shared.tuner.udpPushGeneration) ∨
      w.tuner.udpPushActive = true ∧
        outcome.shared.tuner.udpPushGeneration = w.tuner.udpPushGeneration ∧
        generation ≠ some w.tuner.udpPushGeneration

theorem exists_next_of_roles {role : PushRole} (member : role ∈ roles outcome) :
    ∃ next ∈ outcome.next, next.role = some role := by
  obtain ⟨next, among, is⟩ := List.mem_flatMap.mp member
  exact ⟨next, among, Option.mem_toList.mp is⟩

/-- The role of the call is handed on, with its generation. -/
theorem KeepsPushing.handed {frame : Frame} (role : PushRole) (member : role ∈ roles outcome)
    (active : outcome.shared.tuner.udpPushActive = w.tuner.udpPushActive)
    (generation : outcome.shared.tuner.udpPushGeneration = w.tuner.udpPushGeneration)
    (handed : frame.pushGeneration = role.generation) :
    KeepsPushing w frame.pushGeneration outcome := by
  intro pushing
  by_cases current : role.generation = some w.tuner.udpPushGeneration
  · obtain ⟨next, among, is⟩ := exists_next_of_roles member
    refine .inl ⟨next, among, ?_⟩
    rw [Frame.pushGeneration, is, Option.bind_some, current, generation]
  · exact .inr ⟨active ▸ pushing, generation, handed ▸ current⟩

/-- The call is no push thread, and leaves the push that is active. -/
theorem KeepsPushing.kept {frame : Frame}
    (active : outcome.shared.tuner.udpPushActive = w.tuner.udpPushActive)
    (generation : outcome.shared.tuner.udpPushGeneration = w.tuner.udpPushGeneration)
    (other : frame.pushGeneration = none) : KeepsPushing w frame.pushGeneration outcome := by
  intro pushing
  rw [other]
  exact .inr ⟨active ▸ pushing, generation, (Option.some_ne_none _).symm⟩

theorem PushStep.keepsPushing {frame : Frame} (step : PushStep w frame χ outcome) :
    KeepsPushing w frame.pushGeneration outcome := by
  have unpushed {role : Option PushRole} (was : frame.role = role)
      (none_ : role.bind PushRole.generation = none) : frame.pushGeneration = none := by
    rw [Frame.pushGeneration, was, none_]
  cases step with
  | calm same kept =>
      obtain ⟨time, same⟩ := same
      cases is : frame.role with
      | none => exact .kept (by simp [same]) (by simp [same]) (unpushed is rfl)
      | some role =>
          refine .handed role ?_ (by simp [same]) (by simp [same]) ?_
          · rw [kept, is]
            exact List.mem_singleton_self role
          · rw [Frame.pushGeneration, is, Option.bind_some]
  | requested request same was valid now | resets same was now =>
      obtain ⟨time, same⟩ := same
      exact .kept (by simp [same]) (by simp [same]) (unpushed was rfl)
  | refused request same was now =>
      obtain ⟨time, same⟩ := same
      exact .kept (by simp [same]) (by simp [same]) (unpushed was rfl)
  | stopped active stop was now =>
      refine .kept ?_ ?_ (unpushed was rfl) <;> rw [stop, Tuner.udpPushStop, if_pos active]
  | created request channel program was ok create now =>
      intro _
      have started : .pushing (w.tuner.pushCtx (channel.deref w.db) program request.target) ∈
          roles outcome := by
        rw [now]
        exact List.mem_cons_of_mem _ (List.mem_singleton_self _)
      obtain ⟨next, among, is⟩ := exists_next_of_roles started
      refine .inl ⟨next, among, ?_⟩
      rw [Frame.pushGeneration, is, create]
      rfl
  | createFailed request channel program was ok create now =>
      intro pushing
      rw [create] at pushing
      cases pushing
  | wrote request id was write now =>
      subst was
      exact .kept (by rw [write]; rfl) (by rw [write]; rfl) rfl
  | reset was write now =>
      subst was
      exact .kept (by rw [write]; rfl) (by rw [write]; rfl) rfl
  | left ctx same was now =>
      obtain ⟨time, same⟩ := same
      refine .handed (.ending ctx) ?_ (by simp [same]) (by simp [same]) ?_
      · rw [now]
        exact List.mem_singleton_self _
      · rw [Frame.pushGeneration, was]
        rfl
  | failed ctx same was fails now =>
      obtain ⟨time, same⟩ := same
      refine .handed (.done ctx) ?_ (by simp [same]) (by simp [same]) ?_
      · rw [now]
        exact List.mem_singleton_self _
      · rw [Frame.pushGeneration, was]
        rfl
  | ended ctx was write now =>
      subst was
      refine .handed (.done ctx) ?_ (by rw [write]; rfl) (by rw [write]; rfl) rfl
      rw [now]
      exact List.mem_singleton_self _
  | finished ctx was done now =>
      subst was
      intro pushing
      rw [done] at pushing ⊢
      by_cases current : w.tuner.udpPushGeneration = ctx.generation
      · rw [Tuner.udpPushDone, if_pos current] at pushing
        cases pushing
      · rw [Tuner.udpPushDone, if_neg current] at pushing ⊢
        refine .inr ⟨pushing, rfl, fun same => current (Option.some.inj same).symm⟩

end Records

/-- What the tuner record says of timers, waiters and push threads that are
still there. -/
structure Recorded (w : World) (frames : Multiset Frame) : Prop where
  parked : w.tuner.parkedFd.isSome = true →
    ∃ frame ∈ frames, frame.expires = some w.tuner.parkGeneration
  pushing : w.tuner.udpPushActive = true →
    ∃ frame ∈ frames, frame.pushGeneration = some w.tuner.udpPushGeneration

section Reachable

variable {guard : Guard World Frame Choice} {db : ChannelDb} {config : Config World Frame}

theorem recorded_of_reachable (reachable : machine.Reachable guard (start db) config) :
    Recorded config.shared config.frames := by
  refine reachable.invariant Recorded ⟨fun parked => (nomatch parked), fun active =>
    (nomatch active)⟩ ?_ ?_
  · intro w frames frame recorded _
    constructor
    · intro parked
      obtain ⟨timer, member, is⟩ := recorded.parked parked
      exact ⟨timer, Multiset.mem_cons_of_mem member, is⟩
    · intro active
      obtain ⟨thread, member, is⟩ := recorded.pushing active
      exact ⟨thread, Multiset.mem_cons_of_mem member, is⟩
  · intro w frame others χ outcome recorded _ acted
    show Recorded outcome.shared (framesAfter outcome others)
    constructor
    · intro parked
      rcases act_parked acted parked with ⟨next, among, is⟩ | ⟨before, same, apart⟩
      · exact ⟨next, mem_framesAfter.mpr (.inl among), is⟩
      · obtain ⟨timer, member, is⟩ := recorded.parked before
        rcases Multiset.mem_cons.mp member with rfl | other
        · exact absurd is apart
        · rw [same]
          exact ⟨timer, mem_framesAfter.mpr (.inr (Multiset.mem_coe.mp other)), is⟩
    · intro active
      rcases (act_pushStep acted).keepsPushing active with
        ⟨next, among, is⟩ | ⟨before, same, apart⟩
      · exact ⟨next, mem_framesAfter.mpr (.inl among), is⟩
      · obtain ⟨thread, member, is⟩ := recorded.pushing before
        rcases Multiset.mem_cons.mp member with rfl | other
        · exact absurd is apart
        · rw [same]
          exact ⟨thread, mem_framesAfter.mpr (.inr (Multiset.mem_coe.mp other)), is⟩

theorem arrives_waitsForClaim : ∀ frame, arrives frame = true → frame.waitsForClaim = 0 := by
  simp [forall_arrives]

theorem claimWaiters_eq (reachable : machine.Reachable guard (start db) config) :
    config.shared.tuner.claimWaiters = tally Frame.waitsForClaim config.frames := by
  have balance := reachable.balanced (fun _ _ => True) (fun w => w.tuner.claimWaiters)
    (fun _ => 0) Frame.waitsForClaim (fun _ _ => trivial) rfl arrives_waitsForClaim ?_
  · simpa using balance
  · intro w frame others χ outcome _ covered acted
    rw [Nat.zero_add] at covered
    simpa [KeepsWaiters] using act_waiters covered acted

end Reachable

theorem fdsOf_injective {first second : Option Fd} (same : fdsOf first = fdsOf second) :
    first = second := by
  cases first <;> cases second <;> simp_all [fdsOf, fdsIn]

section Reachable

variable {db : ChannelDb} {config : Config World Frame}

/-- A call that cannot go on waits for a stats thread that can. -/
theorem getsLighter_of_working (reachable : machine.Reachable Guard.all (start db) config)
    (working : config.Working Frame.isStats) :
    machine.GetsLighter World.backlog Frame.effort config := by
  obtain ⟨frame, rest, inside, works⟩ := working
  cases acted : act config.shared frame givingUp with
  | some outcome =>
      exact ⟨_, inside, frame, rfl, givingUp, outcome, acted,
        act_lightens givingUp_givesUp works acted⟩
  | none =>
      have member : frame ∈ config.frames :=
        Multiset.mem_coe.mpr (List.mem_flatten.mpr ⟨_, inside, List.mem_cons_self⟩)
      rcases waits_of_act_eq_none givingUp_givesUp acted with
        ⟨thread, running, rfl⟩ | ⟨ds, keepFrontend, running, rfl⟩
      · have joins := heldJoins_of_reachable reachable
        obtain ⟨reader, among, reads⟩ := mem_tally.mp (joins.running thread running)
        obtain ⟨outcome, goesOn, less⟩ :=
          refresher_lightens reads (joins.stopped thread member) givingUp
        have stats : reader.isStats = true := by
          revert reads
          fun_cases Frame.refresher reader <;> simp
        exact ⟨_, mem_threads_of_isStats reachable among stats, reader, rfl, givingUp, outcome,
          goesOn, less⟩
      · have joins := streamJoins_of_reachable reachable
        have isOpen : ds ∈ openStreams config.shared config.frames :=
          Multiset.mem_add.mpr (.inr (mem_tally.mpr ⟨_, member, mem_streamOf.mpr rfl⟩))
        obtain ⟨reader, among, reads⟩ := mem_tally.mp (joins.running ds isOpen running)
        obtain ⟨outcome, goesOn, less⟩ :=
          reader_lightens reads (joins.stopped ds keepFrontend member) givingUp
        have stats : reader.isStats = true := by
          revert reads
          fun_cases Frame.reader reader <;> simp
        exact ⟨_, mem_threads_of_isStats reachable among stats, reader, rfl, givingUp, outcome,
          goesOn, less⟩

/-- A tuner that nobody uses: every call has returned, and what is left of the
threads is the refresher of the hold, if there is one. -/
structure Unused (config : Config World Frame) : Prop where
  returned : ∀ stack ∈ config.threads, stack = [] ∨ ∃ frame, stack = [frame] ∧
    frame.refresher = {config.shared.tuner.heldStatsThread} ∧
    config.shared.tuner.heldFd.isSome = true
  alone : config.frames.card ≤ 1
  unclaimed : config.shared.tuner.busy = false
  idle : config.shared.tuner.activeStream = none
  unparked : config.shared.tuner.parkedFd = none
  noWaiters : config.shared.tuner.claimWaiters = 0
  noWorker : config.shared.tuner.scanWorkerActive = false
  noPush : config.shared.tuner.udpPushActive = false
  node : config.shared.node.opener = config.shared.tuner.heldFd

/-- When no call is under way, only the refresher of the hold is left. -/
theorem refresher_of_returned (reachable : machine.Reachable Guard.all (start db) config)
    (stats : ∀ frame ∈ config.frames, ∃ reader, frame = .stats reader)
    (idle : config.shared.tuner.activeStream = none) :
    ∀ frame ∈ config.frames, frame.refresher = {config.shared.tuner.heldStatsThread} ∧
      config.shared.tuner.heldFd.isSome = true := by
  have noStream : openStreams config.shared config.frames = 0 := by
    rw [openStreams, idle, streamOf_none, zero_add, tally_eq_zero]
    intro frame member
    obtain ⟨reader, rfl⟩ := stats frame member
    rfl
  have noReader : ∀ frame ∈ config.frames, frame.reader = 0 := by
    have none := (liveStats_of_reachable reachable).readers
    rw [noStream, Multiset.le_zero, tally_eq_zero] at none
    exact none
  intro frame member
  have known : ∃ thread, frame.refresher = {thread} := by
    have other := noReader frame member
    obtain ⟨reader, rfl⟩ := stats frame member
    revert other
    cases reader <;> simp [Frame.refresher, Frame.reader, streamOf]
  obtain ⟨thread, is⟩ := known
  have current := (heldReadings_of_reachable reachable).current thread
    (mem_tally.mpr ⟨frame, member, is ▸ Multiset.mem_singleton_self thread⟩)
  obtain ⟨events, ran⟩ := reachable
  refine ⟨by rw [is, current.2.1], ?_⟩
  rcases (refreshed_of_run ran).owned current.1 with held | ⟨stopper, among, stops⟩
  · exact held
  · obtain ⟨reader, rfl⟩ := stats stopper among
    cases stops

/-- What the record says of calls is void when none is left. -/
theorem unused_of_returned (reachable : machine.Reachable Guard.all (start db) config)
    (rests : ¬ config.Working Frame.isStats) : Unused config := by
  have tops : ∀ stack ∈ config.threads, stack = [] ∨ ∃ frame, stack = [.stats frame] := by
    intro stack inside
    rcases statsApart_of_reachable reachable stack inside with alone | working
    · exact .inr alone
    · cases stack with
      | nil => exact .inl rfl
      | cons frame rest =>
          exact absurd ⟨frame, rest, inside, working frame List.mem_cons_self⟩ rests
  have stats : ∀ frame ∈ config.frames, ∃ reader, frame = .stats reader := by
    intro frame member
    obtain ⟨stack, inside, among⟩ := List.mem_flatten.mp (Multiset.mem_coe.mp member)
    rcases tops stack inside with rfl | ⟨reader, rfl⟩
    · exact absurd among List.not_mem_nil
    · exact ⟨reader, List.mem_singleton.mp among⟩
  have nobody {M : Type} [AddCommMonoid M] [PartialOrder M] [IsOrderedCancelAddMonoid M]
      [CanonicallyOrderedAdd M] {token : Frame → M} (none : ∀ reader, token (.stats reader) = 0) :
      tally token config.frames = 0 := by
    rw [tally_eq_zero]
    intro frame member
    obtain ⟨reader, rfl⟩ := stats frame member
    exact none reader
  have unclaimed : config.shared.tuner.busy = false := by
    have balance := busy_eq_tally_claims reachable
    rw [nobody fun _ => rfl] at balance
    exact Bool.toNat_eq_zero.mp balance
  have unclaimed_of {p : Prop} (claims : p → config.shared.tuner.busy = true) : ¬ p := by
    intro holds
    have busy := claims holds
    rw [unclaimed] at busy
    cases busy
  have idle : config.shared.tuner.activeStream = none :=
    Option.not_isSome_iff_eq_none.mp (unclaimed_of (busy_of_active reachable))
  have unparked : config.shared.tuner.parkedFd = none := by
    apply Option.not_isSome_iff_eq_none.mp
    intro parked
    obtain ⟨timer, member, expires⟩ := (recorded_of_reachable reachable).parked parked
    obtain ⟨reader, rfl⟩ := stats timer member
    cases expires
  have refreshers := refresher_of_returned reachable stats idle
  constructor
  · intro stack inside
    refine (tops stack inside).imp_right ?_
    rintro ⟨reader, rfl⟩
    exact ⟨.stats reader, rfl, refreshers _
      (Multiset.mem_coe.mpr (List.mem_flatten.mpr ⟨_, inside, List.mem_singleton_self _⟩))⟩
  · have alone := (heldReadings_of_reachable reachable).alone
    have count : (tally Frame.refresher config.frames).card = config.frames.card := by
      rw [tally, Multiset.map_congr rfl fun frame member => (refreshers frame member).1]
      simp
    rwa [count] at alone
  · exact unclaimed
  · exact idle
  · exact unparked
  · rw [claimWaiters_eq reachable]
    exact nobody fun _ => rfl
  · exact (Bool.not_eq_true _).mp (unclaimed_of (busy_of_working reachable))
  · apply (Bool.not_eq_true _).mp
    intro pushing
    obtain ⟨thread, member, pushes⟩ := (recorded_of_reachable reachable).pushing pushing
    obtain ⟨reader, rfl⟩ := stats thread member
    cases pushes
  · have owned := nodeFds_eq reachable
    rw [nobody fun _ => rfl, World.fds, unparked, idle] at owned
    simp only [Option.map_none, fdsOf_none, add_zero] at owned
    exact fdsOf_injective owned

/-- Whatever has happened to a tuner, in every order of steps and with every
failure: without anything new, the calls that are under way can all come to
their end, and they leave the tuner to the next client. -/
theorem calls_can_finish (reachable : machine.Reachable Guard.all (start db) config) :
    ∃ moves final, machine.run Guard.all config (movesOnly moves) = some final ∧
      Unused final := by
  obtain ⟨moves, final, ran, rests⟩ :=
    reachable.drains Frame.isStats (fun _ => getsLighter_of_working)
  have reached : machine.Reachable Guard.all (start db) final := by
    obtain ⟨events, before⟩ := reachable
    refine ⟨events ++ movesOnly moves, ?_⟩
    rw [run_append, before]
    exact ran
  exact ⟨moves, final, ran, unused_of_returned reached rests⟩

end Reachable

/-- A hold, and `channel=none` up to where it waits for the refresher. -/
def noneJoinsRefresher : Schedule :=
  .arrive (.set (.vchannelSet ⟨2, 1⟩)) :: steps 0 9 ++
    .arrive (.set (.channelSet noneText)) :: steps 2 4

theorem calls_can_finish_join :
    ∃ config, machine.Reachable Guard.all (start oneStation) config ∧
      ((config.threads[2]?.bind List.head?) = some (.hold (.joinHeldStats 0)) ∧
        0 ∈ config.shared.heldThreads) ∧
      ∃ moves final, machine.run Guard.all config (movesOnly moves) = some final ∧
        Unused final := by
  obtain ⟨config, reachable, waits⟩ := machine.reachable_of_run Guard.all (start oneStation)
    noneJoinsRefresher
    (fun config => (config.threads[2]?.bind List.head?) = some (.hold (.joinHeldStats 0)) ∧
      0 ∈ config.shared.heldThreads) (by decide +kernel)
  exact ⟨config, reachable, waits, calls_can_finish reachable⟩

end HdhrEmu
