import HdhrEmu.StreamStats

/-!
# What is cached of a hold

The refresher of a hold is joined before its descriptor is closed or handed on,
and before another hold is installed.  While it runs, the frontend therefore
stays tuned as it is, and what it publishes is a reading of the hold that is
installed.
-/

namespace HdhrEmu

open Interleaving Interleaving.Machine

/-- The refresher that the call is. -/
def Frame.refresher : Frame → Multiset Nat
  | .stats (.heldStatsThread thread) | .stats (.heldStatsRead thread _)
  | .stats (.heldStatsPublish thread _ _) | .stats (.heldStatsSleep thread _) => {thread}
  | _ => 0

/-- What is cached of the hold. -/
def World.heldCache (w : World) : Bool × Reading :=
  (w.tuner.heldStatsCacheValid, w.tuner.heldStatsCache)

/-- What an action does to the refresher and to what is cached of the hold. -/
inductive HeldStep (w : World) : Frame → Outcome → Prop
  | kept {frame : Frame} {outcome : Outcome}
      (reader : (outcome.next.map Frame.refresher).sum = frame.refresher)
      (refresher : outcome.shared.refresher = w.refresher)
      (threads : outcome.shared.heldThreads = w.heldThreads)
      (cache : outcome.shared.heldCache = w.heldCache)
      (held : outcome.shared.tuner.heldFd = w.tuner.heldFd ∨ outcome.shared.tuner.heldFd = none) :
      HeldStep w frame outcome
  | installed {fd : Fd} {outcome : Outcome} (started : Bool)
      (reader : (outcome.next.map Frame.refresher).sum =
        if started then {w.nextHeldThread} else 0)
      (refresher : outcome.shared.refresher =
        if started then (true, w.nextHeldThread, w.nextHeldThread + 1) else (false, w.refresher.2))
      (threads : outcome.shared.heldThreads =
        if started then w.nextHeldThread :: w.heldThreads else w.heldThreads)
      (empty : outcome.shared.tuner.heldStatsCacheValid = false) :
      HeldStep w (.hold (.installHoldFd [] fd)) outcome
  | joined {thread : Nat} {outcome : Outcome} (returned : thread ∉ w.heldThreads)
      (same : outcome.shared = { w with tuner := w.tuner.heldStatsJoined })
      (next : outcome.next = []) : HeldStep w (.hold (.joinHeldStats thread)) outcome
  | published {thread : Nat} {fd : Fd} {reading : Reading} {outcome : Outcome}
      (same : outcome.shared = { w with tuner := w.tuner.publishHeldStats reading })
      (next : outcome.next = [.stats (.heldStatsSleep thread fd)]) :
      HeldStep w (.stats (.heldStatsPublish thread fd reading)) outcome
  | returned {frame : Frame} {thread : Nat} {outcome : Outcome}
      (was : frame.refresher = {thread}) (returns : w.heldStatsReturn thread = some outcome) :
      HeldStep w frame outcome

@[simp]
theorem refresher_stopping (held : Option Fd) (frames : List Frame) :
    ((stopping held frames).map Frame.refresher).sum = (frames.map Frame.refresher).sum := by
  unfold stopping
  split <;> simp [Frame.refresher]

@[simp]
theorem refresher_granted (granted : Granted) : (granted.frames.map Frame.refresher).sum = 0 := by
  rcases granted with ⟨_ | _, _⟩ | _ <;> rfl

@[simp]
theorem refresher_claimTimedOut (db : ChannelDb) (who : Claimant) :
    ((who.claimTimedOut db).map Frame.refresher).sum = 0 := by
  rcases who with ⟨_ | _, _⟩ | _ <;> rfl

@[simp]
theorem refresher_openFailed (who : Streamer) : (who.openFailed.map Frame.refresher).sum = 0 := by
  cases who <;> rfl

@[simp]
theorem refresher_opened (who : Streamer) (ds : DvbStream) :
    ((who.opened ds).map Frame.refresher).sum = 0 := by
  cases who <;> rfl

section Groups

variable {w : World} {χ : Choice} {outcome : Outcome}

theorem holdAct_heldStep {frame : HoldFrame} (acted : holdAct w χ frame = some outcome) :
    HeldStep w (.hold frame) outcome := by
  revert acted
  fun_cases holdAct w χ frame <;> intro acted <;> cases acted
  case case4 running => exact .joined running rfl rfl
  case case17 => exact .installed true rfl rfl rfl rfl
  case case18 => exact .installed false rfl rfl rfl rfl
  all_goals
    refine .kept ?_ ?_ ?_ ?_ ?_ <;>
    simp [Outcome.next, Frame.refresher, World.refresher, World.heldCache]

theorem releaseAct_heldStep {frame : ReleaseFrame} (acted : releaseAct w χ frame = some outcome) :
    HeldStep w (.release frame) outcome := by
  revert acted
  fun_cases releaseAct w χ frame <;> intro acted <;> cases acted <;>
    refine .kept ?_ ?_ ?_ ?_ ?_ <;>
    simp [Outcome.next, Frame.refresher, World.refresher, World.heldCache]

theorem claimAct_heldStep {frame : ClaimFrame} (acted : claimAct w χ frame = some outcome) :
    HeldStep w (.claim frame) outcome := by
  revert acted
  fun_cases claimAct w χ frame <;> intro acted <;> cases acted <;>
    refine .kept ?_ ?_ ?_ ?_ ?_ <;>
    simp [Outcome.next, Frame.refresher, World.refresher, World.heldCache]

theorem streamAct_heldStep {frame : StreamFrame} (acted : streamAct w χ frame = some outcome) :
    HeldStep w (.stream frame) outcome := by
  revert acted
  fun_cases streamAct w χ frame <;> intro acted <;> cases acted <;>
    refine .kept ?_ ?_ ?_ ?_ ?_ <;>
    simp [Outcome.next, Frame.refresher, World.refresher, World.heldCache]

theorem pushAct_heldStep {frame : PushFrame} (acted : pushAct w χ frame = some outcome) :
    HeldStep w (.push frame) outcome := by
  revert acted
  fun_cases pushAct w χ frame <;> intro acted <;> cases acted <;>
    refine .kept ?_ ?_ ?_ ?_ ?_ <;>
    simp [Outcome.next, Frame.refresher, World.refresher, World.heldCache]

theorem pullAct_heldStep {frame : PullFrame} (acted : pullAct w χ frame = some outcome) :
    HeldStep w (.pull frame) outcome := by
  revert acted
  fun_cases pullAct w χ frame <;> intro acted <;> cases acted <;>
    refine .kept ?_ ?_ ?_ ?_ ?_ <;>
    simp [Outcome.next, Frame.refresher, World.refresher, World.heldCache]

theorem setAct_heldStep {frame : SetFrame} (acted : setAct w χ frame = some outcome) :
    HeldStep w (.set frame) outcome := by
  revert acted
  fun_cases setAct w χ frame <;> intro acted <;> cases acted <;>
    refine .kept ?_ ?_ ?_ ?_ ?_ <;>
    simp [Outcome.next, Frame.refresher, World.refresher, World.heldCache]

theorem scanAct_heldStep {frame : ScanFrame} (acted : scanAct w χ frame = some outcome) :
    HeldStep w (.scan frame) outcome := by
  revert acted
  fun_cases scanAct w χ frame <;> intro acted <;> cases acted <;>
    refine .kept ?_ ?_ ?_ ?_ ?_ <;>
    simp [Outcome.next, Frame.refresher, World.refresher, World.heldCache]

theorem statsAct_heldStep {frame : StatsFrame} (acted : statsAct w χ frame = some outcome) :
    HeldStep w (.stats frame) outcome := by
  revert acted
  fun_cases statsAct w χ frame <;> intro acted
  case case2 | case4 | case6 => exact .returned rfl acted
  case case5 =>
      cases acted
      exact .published rfl rfl
  all_goals
    cases acted
    refine .kept ?_ ?_ ?_ ?_ ?_ <;>
    simp [Outcome.next, Frame.refresher, World.refresher, World.heldCache]

theorem act_heldStep {frame : Frame} (acted : act w frame χ = some outcome) :
    HeldStep w frame outcome := by
  cases frame with
  | hold frame => exact holdAct_heldStep acted
  | release frame => exact releaseAct_heldStep acted
  | claim frame => exact claimAct_heldStep acted
  | stream frame => exact streamAct_heldStep acted
  | push frame => exact pushAct_heldStep acted
  | pull frame => exact pullAct_heldStep acted
  | set frame => exact setAct_heldStep acted
  | scan frame => exact scanAct_heldStep acted
  | stats frame => exact statsAct_heldStep acted

end Groups

theorem arrives_refresher : ∀ frame, arrives frame = true → frame.refresher = 0 := by
  simp [forall_arrives, Frame.refresher]

section Step

variable {w : World} {frame : Frame} {others : List Frame} {χ : Choice} {outcome : Outcome}

/-- A call that is going to stop the refresher comes with the descriptor. -/
theorem exists_fds_of_willStop (stacked : Stacked StopsFirst frame others) {stopper : Frame}
    (member : stopper ∈ others) (stops : stopper.willStop = true) :
    ∃ owner ∈ others, owner.fds ≠ 0 := by
  by_cases notYet : stopper.stopsRefresher = true
  · obtain ⟨rest, threads, ⟨-, quietRest⟩, each, rfl⟩ := stacked
    rcases List.mem_append.mp member with below | elsewhere
    · rw [quietRest stopper below] at notYet
      cases notYet
    · obtain ⟨stack, inside, among⟩ := List.mem_flatten.mp elsewhere
      cases stack with
      | nil => exact absurd among List.not_mem_nil
      | cons top lower =>
          obtain ⟨first, quietLower⟩ := each _ inside
          rcases List.mem_cons.mp among with rfl | low
          · obtain ⟨owner, where_, owns⟩ := first notYet
            refine ⟨owner, List.mem_append_right _ ?_, owns⟩
            exact List.mem_flatten.mpr ⟨_, inside, List.mem_cons_of_mem _ where_⟩
          · rw [quietLower stopper low] at notYet
            cases notYet
  · rw [Bool.not_eq_true] at notYet
    exact ⟨stopper, member, fds_of_willStop stops notYet⟩

/-- A call that is still going to stop the refresher does not touch the node. -/
theorem node_of_willStop (stops : frame.willStop = true) (acted : act w frame χ = some outcome) :
    outcome.shared.node = w.node := by
  revert stops
  fun_cases Frame.willStop frame <;> intro stops
  · simp only [act, holdAct] at acted
    split at acted <;> cases acted <;> rfl
  · simp only [act, holdAct] at acted
    split at acted <;> cases acted
    rfl
  · cases acted
    rfl
  · simp only [act, setAct] at acted
    split at acted
    · cases acted
      rfl
    · split at acted <;> cases acted <;> rfl
  · simp only [act, scanAct] at acted
    split at acted <;> cases acted <;> rfl
  · cases stops

/-- While a refresher is not joined, the node stays as it is. -/
theorem node_of_started {past : List Frame} (stacked : Stacked StopsFirst frame others)
    (owned : Owned w (frame ::ₘ (others : Multiset Frame)))
    (refreshed : Refreshed w (frame ::ₘ (others : Multiset Frame)) past)
    (started : w.tuner.heldStatsThreadStarted = true) (acted : act w frame χ = some outcome) :
    outcome.shared.node = w.node := by
  by_cases stops : frame.willStop = true
  · exact node_of_willStop stops acted
  rw [Bool.not_eq_true] at stops
  rcases act_keepsNode acted with same | closed | owns
  · exact same
  · obtain ⟨record, idle⟩ := owned.closed closed
    rcases refreshed.owned started with held | ⟨stopper, member, willStop⟩
    · obtain ⟨fd, is⟩ := Option.isSome_iff_exists.mp held
      rw [World.fds, is, add_assoc] at record
      exact absurd record (fdsOf_some_add_ne_zero _ _)
    · rcases Multiset.mem_cons.mp member with rfl | elsewhere
      · rw [stops] at willStop
        cases willStop
      · obtain ⟨owner, inside, owns⟩ :=
          exists_fds_of_willStop stacked (Multiset.mem_coe.mp elsewhere) willStop
        exact absurd (idle owner inside) owns
  · rw [refreshed.stopped stacked owned owns stops] at started
    cases started

/-- At most one refresher runs, the current one, and what is cached of the hold
with a lock, or about to be, was read from the frontend as it is tuned now. -/
structure HeldReadings (w : World) (frames : Multiset Frame) : Prop where
  alone : (tally Frame.refresher frames).card ≤ 1
  current : ∀ thread ∈ tally Frame.refresher frames, w.tuner.heldStatsThreadStarted = true ∧
    w.tuner.heldStatsThread = thread ∧ thread ∈ w.heldThreads
  cached : w.tuner.heldFd.isSome = true → w.tuner.heldStatsCacheValid = true →
    w.tuner.heldStatsCache.stats.hasLock = true → w.tuner.heldStatsCache.tunedTo = w.node.tuning
  reading : ∀ thread fd reading, .stats (.heldStatsPublish thread fd reading) ∈ frames →
    reading.stats.hasLock = true → reading.tunedTo = w.node.tuning

/-- A published reading was made by the same refresher. -/
theorem heldPublished_of_kept (reader : (outcome.next.map Frame.refresher).sum = frame.refresher)
    (acted : act w frame χ = some outcome) {thread : Nat} {fd : Fd} {reading : Reading}
    (member : .stats (.heldStatsPublish thread fd reading) ∈ outcome.next) :
    frame = .stats (.heldStatsRead thread fd) ∧ outcome.shared = w ∧
      ∃ stats, reading = w.node.read fd stats := by
  have among : thread ∈ tally Frame.refresher (outcome.next : Multiset Frame) :=
    mem_tally.mpr ⟨_, Multiset.mem_coe.mpr member, Multiset.mem_singleton_self thread⟩
  rw [tally_coe, reader] at among
  revert among
  fun_cases Frame.refresher frame <;> intro among
  · simp only [act, statsAct] at acted
    split at acted <;> cases acted <;> simp [Outcome.next] at member
  · cases acted
    simp only [Outcome.next, List.flatten_nil, List.append_nil, List.mem_singleton] at member
    cases member
    exact ⟨rfl, rfl, _, rfl⟩
  · simp only [act, statsAct] at acted
    split at acted <;> cases acted <;> simp [Outcome.next] at member
  · simp only [act, statsAct] at acted
    split at acted <;> cases acted <;> simp [Outcome.next] at member
  · exact absurd among (Multiset.notMem_zero _)

/-- The refresher of a reading that is about to be published. -/
theorem mem_refresher_of_published {frames : Multiset Frame} {thread : Nat} {fd : Fd}
    {reading : Reading} (member : .stats (.heldStatsPublish thread fd reading) ∈ frames) :
    thread ∈ tally Frame.refresher frames :=
  mem_tally.mpr ⟨_, member, Multiset.mem_singleton_self thread⟩

theorem HeldReadings.kept {past : List Frame} (stacked : Stacked StopsFirst frame others)
    (owned : Owned w (frame ::ₘ (others : Multiset Frame)))
    (refreshed : Refreshed w (frame ::ₘ (others : Multiset Frame)) past)
    (readings : HeldReadings w (frame ::ₘ (others : Multiset Frame)))
    (reader : (outcome.next.map Frame.refresher).sum = frame.refresher)
    (refresher : outcome.shared.refresher = w.refresher)
    (threads : outcome.shared.heldThreads = w.heldThreads)
    (cache : outcome.shared.heldCache = w.heldCache)
    (held : outcome.shared.tuner.heldFd = w.tuner.heldFd ∨ outcome.shared.tuner.heldFd = none)
    (acted : act w frame χ = some outcome) :
    HeldReadings outcome.shared (framesAfter outcome others) := by
  have same : tally Frame.refresher (framesAfter outcome others) =
      tally Frame.refresher (frame ::ₘ (others : Multiset Frame)) := by
    rw [tally_framesAfter, reader, tally_cons]
  simp only [World.refresher, Prod.mk.injEq] at refresher
  simp only [World.heldCache, Prod.mk.injEq] at cache
  constructor
  · rw [same]
    exact readings.alone
  · rw [same, refresher.1, refresher.2.1, threads]
    exact readings.current
  · intro isHeld valid locked
    rcases held with kept | none
    · rw [kept] at isHeld
      rw [cache.1] at valid
      rw [cache.2] at locked ⊢
      rw [owned.node_of_held isHeld acted]
      exact readings.cached isHeld valid locked
    · rw [none] at isHeld
      cases isHeld
  · intro thread fd reading member locked
    rcases mem_framesAfter.mp member with new | old
    · obtain ⟨-, unchanged, stats, rfl⟩ := heldPublished_of_kept reader acted new
      rw [unchanged]
      exact hasLock_read locked
    · have before : .stats (.heldStatsPublish thread fd reading) ∈
          frame ::ₘ (others : Multiset Frame) := Multiset.mem_cons_of_mem (Multiset.mem_coe.mpr old)
      have started := (readings.current thread (mem_refresher_of_published before)).1
      rw [node_of_started stacked owned refreshed started acted]
      exact readings.reading thread fd reading before locked

theorem not_published_of_install {installing : Fd}
    (acted : act w (.hold (.installHoldFd [] installing)) χ = some outcome) {thread : Nat} {fd : Fd}
    {reading : Reading} : .stats (.heldStatsPublish thread fd reading) ∉ outcome.next := by
  simp only [act, holdAct] at acted
  split at acted
  · cases acted
    simp [Outcome.next]
  · split at acted <;> cases acted <;> simp [Outcome.next]

/-- A hold that is installed finds no refresher. -/
theorem HeldReadings.installed {past : List Frame} {fd : Fd} {started : Bool}
    (stacked : Stacked StopsFirst (.hold (.installHoldFd [] fd)) others)
    (owned : Owned w (.hold (.installHoldFd [] fd) ::ₘ (others : Multiset Frame)))
    (refreshed : Refreshed w (.hold (.installHoldFd [] fd) ::ₘ (others : Multiset Frame)) past)
    (readings : HeldReadings w (.hold (.installHoldFd [] fd) ::ₘ (others : Multiset Frame)))
    (reader : (outcome.next.map Frame.refresher).sum =
      if started then {w.nextHeldThread} else 0)
    (refresher : outcome.shared.refresher =
      if started then (true, w.nextHeldThread, w.nextHeldThread + 1) else (false, w.refresher.2))
    (threads : outcome.shared.heldThreads =
      if started then w.nextHeldThread :: w.heldThreads else w.heldThreads)
    (empty : outcome.shared.tuner.heldStatsCacheValid = false)
    (acted : act w (.hold (.installHoldFd [] fd)) χ = some outcome) :
    HeldReadings outcome.shared (framesAfter outcome others) := by
  have none : tally Frame.refresher (others : Multiset Frame) = 0 := by
    refine Multiset.eq_zero_of_forall_notMem fun thread among => ?_
    have running := (readings.current thread (by
      rw [tally_cons]
      exact Multiset.mem_add.mpr (.inr among))).1
    rw [refreshed.stopped stacked owned (by simp) rfl] at running
    cases running
  have now : tally Frame.refresher (framesAfter outcome others) =
      if started then {w.nextHeldThread} else 0 := by
    rw [tally_framesAfter, reader, none, add_zero]
  constructor
  · rw [now]
    split <;> simp
  · rw [now]
    intro thread among
    split at among
    · rename_i runs
      rw [if_pos runs] at refresher threads
      simp only [World.refresher, Prod.mk.injEq] at refresher
      cases Multiset.mem_singleton.mp among
      rw [threads]
      exact ⟨refresher.1, refresher.2.1, List.mem_cons_self⟩
    · exact absurd among (Multiset.notMem_zero _)
  · intro _ valid
    rw [empty] at valid
    cases valid
  · intro thread fd reading member locked
    rcases mem_framesAfter.mp member with new | old
    · exact absurd new (not_published_of_install acted)
    · have among := mem_refresher_of_published (Multiset.mem_coe.mpr old)
      rw [none] at among
      exact absurd among (Multiset.notMem_zero _)

theorem HeldReadings.joined {past : List Frame} {thread : Nat}
    (refreshed : Refreshed w (.hold (.joinHeldStats thread) ::ₘ (others : Multiset Frame)) past)
    (readings : HeldReadings w (.hold (.joinHeldStats thread) ::ₘ (others : Multiset Frame)))
    (returned : thread ∉ w.heldThreads)
    (same : outcome.shared = { w with tuner := w.tuner.heldStatsJoined })
    (next : outcome.next = []) : HeldReadings outcome.shared (framesAfter outcome others) := by
  have none : tally Frame.refresher (framesAfter outcome others) = 0 := by
    rw [tally_framesAfter, next, List.map_nil, List.sum_nil, zero_add]
    refine Multiset.eq_zero_of_forall_notMem fun other among => ?_
    obtain ⟨-, current, alive⟩ := readings.current other (by
      rw [tally_cons]
      exact Multiset.mem_add.mpr (.inr among))
    obtain ⟨-, joining⟩ := refreshed.joining thread (Multiset.mem_cons_self _ _)
    rw [joining] at current
    exact returned (current ▸ alive)
  constructor
  · rw [none]
    exact Nat.zero_le _
  · rw [none]
    exact fun _ among => absurd among (Multiset.notMem_zero _)
  · rw [same]
    exact readings.cached
  · intro other fd reading member
    have among := mem_refresher_of_published member
    rw [none] at among
    exact absurd among (Multiset.notMem_zero _)

theorem HeldReadings.published {thread : Nat} {fd : Fd} {reading : Reading}
    (readings : HeldReadings w
      (.stats (.heldStatsPublish thread fd reading) ::ₘ (others : Multiset Frame)))
    (same : outcome.shared = { w with tuner := w.tuner.publishHeldStats reading })
    (next : outcome.next = [.stats (.heldStatsSleep thread fd)]) :
    HeldReadings outcome.shared (framesAfter outcome others) := by
  have sameReaders : tally Frame.refresher (framesAfter outcome others) =
      tally Frame.refresher
        (.stats (.heldStatsPublish thread fd reading) ::ₘ (others : Multiset Frame)) := by
    rw [tally_framesAfter, next, tally_cons]
    rfl
  constructor
  · rw [sameReaders]
    exact readings.alone
  · rw [sameReaders, same]
    exact readings.current
  · rw [same]
    exact fun _ _ => readings.reading thread fd reading (Multiset.mem_cons_self _ _)
  · intro other otherFd late member
    rw [same]
    rcases mem_framesAfter.mp member with new | old
    · rw [next, List.mem_singleton] at new
      cases new
    · exact readings.reading other otherFd late (Multiset.mem_cons_of_mem (Multiset.mem_coe.mpr old))

theorem HeldReadings.returned {thread : Nat}
    (readings : HeldReadings w (frame ::ₘ (others : Multiset Frame)))
    (was : frame.refresher = {thread}) (returns : w.heldStatsReturn thread = some outcome) :
    HeldReadings outcome.shared (framesAfter outcome others) := by
  have none : tally Frame.refresher (others : Multiset Frame) = 0 := by
    have card := readings.alone
    rw [tally_cons, was, Multiset.card_add, Multiset.card_singleton] at card
    exact Multiset.card_eq_zero.mp (by omega)
  obtain ⟨tuner, node, next⟩ : outcome.shared.tuner = w.tuner ∧ outcome.shared.node = w.node ∧
      outcome.next = [] := by
    cases returns
    exact ⟨rfl, rfl, rfl⟩
  have now : tally Frame.refresher (framesAfter outcome others) = 0 := by
    rw [tally_framesAfter, next, none]
    rfl
  constructor
  · rw [now]
    exact Nat.zero_le _
  · rw [now]
    exact fun _ among => absurd among (Multiset.notMem_zero _)
  · rw [tuner, node]
    exact readings.cached
  · intro other fd reading member
    have among := mem_refresher_of_published member
    rw [now] at among
    exact absurd among (Multiset.notMem_zero _)

theorem HeldReadings.step {past : List Frame} (stacked : Stacked StopsFirst frame others)
    (owned : Owned w (frame ::ₘ (others : Multiset Frame)))
    (refreshed : Refreshed w (frame ::ₘ (others : Multiset Frame)) past)
    (readings : HeldReadings w (frame ::ₘ (others : Multiset Frame)))
    (acted : act w frame χ = some outcome) :
    HeldReadings outcome.shared (framesAfter outcome others) := by
  cases act_heldStep acted with
  | kept reader refresher threads cache held =>
      exact readings.kept stacked owned refreshed reader refresher threads cache held acted
  | installed started reader refresher threads empty =>
      exact readings.installed stacked owned refreshed reader refresher threads empty acted
  | joined returned same next => exact readings.joined refreshed returned same next
  | published same next => exact readings.published same next
  | returned was returns => exact readings.returned was returns

end Step

section Reachable

variable {guard : Guard World Frame Choice} {db : ChannelDb} {config : Config World Frame}

theorem heldReadings_of_reachable (reachable : machine.Reachable guard (start db) config) :
    HeldReadings config.shared config.frames := by
  refine reachable.invariant_of_stacks StopsFirst
    (fun w frames => Owned w frames ∧ ∃ past, Refreshed w frames past) HeldReadings
    (fun _ => stopsFirst_of_reachable)
    (fun _ reached => ⟨nodeFds_eq reached, reached.imp' _ fun _ => refreshed_of_run⟩) ?_ ?_ ?_
  · constructor
    · exact Nat.zero_le _
    · exact fun _ among => absurd among (Multiset.notMem_zero _)
    · exact fun held => nomatch held
    · exact fun _ _ _ member => absurd member (Multiset.notMem_zero _)
  · intro w frames frame readings arriving
    have same : tally Frame.refresher (frame ::ₘ frames) = tally Frame.refresher frames := by
      rw [tally_cons, arrives_refresher frame arriving, zero_add]
    constructor
    · rw [same]
      exact readings.alone
    · rw [same]
      exact readings.current
    · exact readings.cached
    · intro thread fd reading member
      rcases Multiset.mem_cons.mp member with rfl | old
      · cases arriving
      · exact readings.reading thread fd reading old
  · rintro w frame others χ outcome stacked ⟨owned, past, refreshed⟩ readings _ acted
    exact readings.step stacked owned refreshed acted

end Reachable

end HdhrEmu
