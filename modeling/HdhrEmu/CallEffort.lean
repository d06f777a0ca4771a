import HdhrEmu.HeldReadings
import HdhrEmu.Lib.Draining
import HdhrEmu.PushThreads

/-!
# What is left of a call when nothing succeeds any more

Every call comes to its end when the system calls it still makes fail, its
waits time out and its loops are left at their next turn; only the stats
threads run for as long as nobody stops them.  The effort of a frame bounds
how many actions are left of it then.  A queued `channel` request counts as
well, because it sends the scan worker through one more attempt.
-/

namespace HdhrEmu

open Interleaving

/-- No system call succeeds, every wait has timed out, every loop is left and
no stats thread is started. -/
structure Choice.GivesUp (χ : Choice) : Prop where
  fails : χ.ok = false
  timesOut : χ.timedOut = true
  leaves : χ.more = false
  alone : χ.started = false

/-- One call after the other gives up. -/
def givingUp : Choice where
  ok := false
  timedOut := true
  more := false
  started := false

theorem givingUp_givesUp : givingUp.GivesUp :=
  ⟨rfl, rfl, rfl, rfl⟩

@[simp]
def HoldFrame.effort : HoldFrame → Nat
  | .frontendClose _ | .joinHeldStats _ => 1
  | .stopHeldStats | .holdTune _ _ => 2
  | .tunerCloseHold => 4
  | .holdReopen olds _ => olds.length + 1
  | .installHoldFd olds _ => olds.length + 2
  | .tunerOpenHold _ => 6
  | .tunerOpenHoldFromFd _ => 7

@[simp]
def ReleaseFrame.effort : ReleaseFrame → Nat
  | .parkExpiry _ | .parkInstall _ => 2
  | .parkSpawn _ | .streamJoin _ _ => 3
  | .streamTeardown _ _ => 4
  | .tunerReleaseClear => 7
  | .tunerRelease => 12
  | .tunerReleaseParkRestore _ => 13
  | .tunerReleasePark => 14

/-- A failed open is followed by the release of the tuner. -/
@[simp]
def StreamFrame.effort : StreamFrame → Nat
  | .streamReopen _ _ => 14
  | .streamRetune _ _ _ | .streamStart _ _ | .streamReopenClose _ _ _ => 15
  | .streamWaitLock _ _ _ retried => if retried then 15 else 16
  | .streamTune _ _ _ _ => 17
  | .dvbStreamOpen _ _ => 18

@[simp]
def PushFrame.effort : PushFrame → Nat
  | .pushDone _ => 1
  | .pushStart _ => 2
  | .pushEnd _ => 14
  | .pushRead _ | .pushSend _ => 15
  | .pushLoop _ => 16
  | .pushSetStream _ _ => 17
  | .pushBind _ _ => 18

@[simp]
def PullFrame.effort : PullFrame → Nat
  | .releaseHttpPull _ => 15
  | .pullStream _ => 16
  | .pullSetStream _ _ => 17
  | .pullBind _ _ => 18
  | .pullSetPeer _ _ _ => 19
  | .claimForPeer _ _ => 28
  | .streamChannelToClient _ _ _ => 29

@[simp]
def ClaimFrame.effort : ClaimFrame → Nat
  | .claimClosing olds _ => olds.length + 20
  | .tunerTryClaim _ _ _ => 25
  | .tunerTryClaimWaiting _ => 26
  | .tunerTryClaimWait _ => 27

@[simp]
def SetFrame.effort : SetFrame → Nat
  | .udpPushStopWait | .targetNone | .targetWrite _ _ | .pushStartCreate _ _ _ | .channelNone
  | .channelUnmark | .channelWait _ _ | .channelmapReset _ | .programSet _ | .filterSet _
  | .keepalivePacket _ _ | .dbAdd _ => 1
  | .udpPushStop | .pushStartVerify _ _ _ _ | .pushStartLocked _ _ | .pushStartFind _ _ _ => 2
  | .pushStartSiblings _ _ _ | .sweepStalePushes => 3
  | .pushStartRead _ => 4
  | .targetSet _ | .vchannelHold _ => 7
  | .channelmapSet _ | .vchannelStatus _ => 8
  | .vchannelBind _ => 9
  | .vchannelSet _ | .channelQueue _ => 12
  | .channelSpawn _ => 17
  | .channelSelect _ _ => 18
  | .channelClaim _ => 19
  | .channelSet _ => 20

@[simp]
def ScanFrame.effort : ScanFrame → Nat
  | .publishScanStats _ _ => 1
  | .publishScanStatsRead _ _ => 2
  | .scanWorkerDone | .startupOpen => 13
  | .scanExit _ => 21
  | .scanDequeue _ => 22
  | .scanReadPsip _ => 23
  | .scanFinalize _ _ => 28
  | .scanRecord _ _ => 29
  | .scanWaitLock _ _ => 30
  | .scanTune _ => 31
  | .scanOpen _ => 32
  | .scanCloseStale _ _ => 33
  | .scanThread _ => 36
  | .startupTune _ index => 14 + 2 * (atscFreqTable.length - index)
  | .startupWaitLock _ index => 15 + 2 * (atscFreqTable.length - index)

/-- A stats thread that is told to stop. -/
@[simp]
def StatsFrame.effort : StatsFrame → Nat
  | .heldStatsThread _ => 3
  | .heldStatsRead _ _ | .streamStatsRead _ => 2
  | .heldStatsPublish _ _ _ | .heldStatsSleep _ _ | .streamStatsPublish _ _
  | .streamStatsSleep _ => 1

/-- A bound on the actions that are left of a call. -/
@[simp]
def Frame.effort : Frame → Nat
  | .hold frame => frame.effort
  | .release frame => frame.effort
  | .claim frame => frame.effort
  | .stream frame => frame.effort
  | .push frame => frame.effort
  | .pull frame => frame.effort
  | .set frame => frame.effort
  | .scan frame => frame.effort
  | .stats frame => frame.effort

@[simp]
def Frame.isStats : Frame → Bool
  | .stats _ => true
  | _ => false

/-- The further attempts that the queued requests ask for. -/
def World.backlog (w : World) : Nat :=
  10 * w.tuner.pendingQueue.entries.length

abbrev LightensLoad (w : World) (frame : Frame) (outcome : Outcome) : Prop :=
  Lighter World.backlog Frame.effort w frame outcome

theorem effort_stopping (held : Option Fd) (frames : List Frame) :
    ((stopping held frames).map Frame.effort).sum =
      2 * held.isSome.toNat + (frames.map Frame.effort).sum := by
  cases held <;> simp [stopping]

theorem effort_granted (granted : Granted) : (granted.frames.map Frame.effort).sum ≤ 19 := by
  rcases granted with ⟨_ | _, _⟩ | _ <;> simp [Granted.frames]

theorem effort_claimTimedOut (db : ChannelDb) (who : Claimant) :
    ((who.claimTimedOut db).map Frame.effort).sum ≤ 25 := by
  rcases who with ⟨_ | _, _⟩ | _ <;> simp [Claimant.claimTimedOut]

theorem effort_openFailed (who : Streamer) : (who.openFailed.map Frame.effort).sum ≤ 13 := by
  cases who <;> simp [Streamer.openFailed]

theorem length_closing (detached : Detached) (want : Option Tuning) :
    (detached.closing want).length ≤ 2 := by
  have parked : detached.parked.toList.length ≤ 1 := by
    cases detached.parked <;> simp
  unfold Detached.closing
  split
  · split
    · omega
    · split
      · simp
      · simp only [List.length_cons]
        omega
  · split
    · simp
    · omega

theorem length_toList_append (first second : Option Fd) :
    (first.toList ++ second.toList).length ≤ 2 := by
  cases first <;> cases second <;> simp

theorem length_pendingWithRoom (t : Tuner) :
    t.pendingWithRoom.entries.length ≤ t.pendingQueue.entries.length := by
  unfold Tuner.pendingWithRoom
  split
  · rw [RingQueue.entries_clear]
    exact Nat.zero_le _
  · exact Nat.le_refl _

/-- A request takes one place of the queue. -/
theorem backlog_channelQueue (w : World) (delivery : DeliverySystem) (value : ChannelValue) :
    ({ w with tuner := w.tuner.channelQueue delivery value } : World).backlog ≤
      w.backlog + 10 := by
  have room := length_pendingWithRoom w.tuner
  rw [World.backlog, World.backlog, Tuner.entries_channelQueue, List.length_append,
    List.length_singleton]
  omega

/-- A call that changes nothing about the queue. -/
theorem lightens_of_kept {w : World} {frame : Frame} {outcome : Outcome}
    (queue : outcome.shared.tuner.pendingQueue = w.tuner.pendingQueue)
    (less : (outcome.next.map Frame.effort).sum < frame.effort) :
    LightensLoad w frame outcome := by
  unfold LightensLoad Lighter World.backlog
  rw [queue]
  omega

@[simp]
theorem Node.open?_fails (node : Node) (fd : Fd) : node.open? fd false = none :=
  if_neg fun possible => Bool.false_ne_true possible.2

section Groups

variable {w : World} {χ : Choice} {outcome : Outcome}

theorem holdAct_lightens {frame : HoldFrame} (gives : χ.GivesUp)
    (acted : holdAct w χ frame = some outcome) : LightensLoad w (.hold frame) outcome := by
  have olds := length_toList_append w.tuner.heldFd w.tuner.parkedFd
  have one := Bool.toNat_le w.tuner.heldFd.isSome
  rw [List.length_append] at olds
  obtain ⟨fails, timesOut, leaves, alone⟩ := gives
  revert acted
  fun_cases holdAct w χ frame <;> intro acted <;> cases acted
  all_goals
    refine lightens_of_kept rfl ?_
    simp_all [Outcome.next, effort_stopping]
  all_goals omega

theorem releaseAct_lightens {frame : ReleaseFrame} (gives : χ.GivesUp)
    (acted : releaseAct w χ frame = some outcome) : LightensLoad w (.release frame) outcome := by
  obtain ⟨fails, timesOut, leaves, alone⟩ := gives
  revert acted
  fun_cases releaseAct w χ frame <;> intro acted <;> cases acted
  all_goals
    refine lightens_of_kept (by simp) ?_
    simp_all [Outcome.next]

theorem claim_lightens {t : Tuner} {who : Claimant} {frame : Frame} (effort : 24 < frame.effort)
    (queue : t.pendingQueue = w.tuner.pendingQueue) (acted : w.claim t who = some outcome) :
    LightensLoad w frame outcome := by
  have olds := length_closing t.detached who.want
  have one := Bool.toNat_le t.heldFd.isSome
  cases acted
  refine lightens_of_kept queue (Nat.lt_of_le_of_lt ?_ effort)
  simp only [Outcome.next, List.flatten_nil, List.append_nil, effort_stopping, List.map_cons,
    List.map_nil, List.sum_cons, List.sum_nil, Frame.effort, ClaimFrame.effort]
  omega

theorem claimAct_lightens {frame : ClaimFrame}
    (acted : claimAct w χ frame = some outcome) : LightensLoad w (.claim frame) outcome := by
  revert acted
  fun_cases claimAct w χ frame <;> intro acted
  case case2 | case4 => exact claim_lightens (by simp) rfl acted
  case case5 => exact claim_lightens (by simp) (by rfl) acted
  case case6 who _ _ =>
      have again := effort_claimTimedOut w.db who
      cases acted
      refine lightens_of_kept rfl ?_
      simp only [Outcome.next, List.flatten_nil, List.append_nil, Frame.effort, ClaimFrame.effort]
      omega
  case case9 granted =>
      have next := effort_granted granted
      cases acted
      refine lightens_of_kept rfl ?_
      simp only [Outcome.next, List.flatten_nil, List.append_nil, Frame.effort, ClaimFrame.effort,
        List.length_nil]
      omega
  all_goals
    cases acted
    try exact lightens_of_kept rfl (by simp [Outcome.next])

theorem streamAct_lightens {frame : StreamFrame} (gives : χ.GivesUp)
    (acted : streamAct w χ frame = some outcome) : LightensLoad w (.stream frame) outcome := by
  have failed := effort_openFailed frame.who
  obtain ⟨fails, timesOut, leaves, alone⟩ := gives
  revert acted
  fun_cases streamAct w χ frame <;> intro acted <;> cases acted
  all_goals
    refine lightens_of_kept rfl ?_
    simp_all [Outcome.next, StreamFrame.who]
  all_goals omega

theorem pushAct_lightens {frame : PushFrame} (gives : χ.GivesUp)
    (acted : pushAct w χ frame = some outcome) : LightensLoad w (.push frame) outcome := by
  obtain ⟨fails, timesOut, leaves, alone⟩ := gives
  revert acted
  fun_cases pushAct w χ frame <;> intro acted <;> cases acted
  all_goals
    refine lightens_of_kept (by simp) ?_
    simp_all [Outcome.next]

theorem pullAct_lightens {frame : PullFrame} (gives : χ.GivesUp)
    (acted : pullAct w χ frame = some outcome) : LightensLoad w (.pull frame) outcome := by
  obtain ⟨fails, timesOut, leaves, alone⟩ := gives
  revert acted
  fun_cases pullAct w χ frame <;> intro acted <;> cases acted
  all_goals
    refine lightens_of_kept (by simp) ?_
    simp_all [Outcome.next]

theorem setAct_lightens {frame : SetFrame} (gives : χ.GivesUp)
    (acted : setAct w χ frame = some outcome) : LightensLoad w (.set frame) outcome := by
  obtain ⟨fails, timesOut, leaves, alone⟩ := gives
  revert acted
  fun_cases setAct w χ frame <;> intro acted <;> cases acted
  case case31.refl request _ =>
      have queued := backlog_channelQueue w request.delivery request.value
      simp only [LightensLoad, Lighter, Outcome.next, List.flatten_nil, List.append_nil,
        List.map_singleton, List.sum_singleton, Frame.effort, SetFrame.effort]
      omega
  all_goals
    refine lightens_of_kept (by simp) ?_
    simp_all [Outcome.next]

theorem scanAct_lightens {frame : ScanFrame} (gives : χ.GivesUp)
    (acted : scanAct w χ frame = some outcome) : LightensLoad w (.scan frame) outcome := by
  obtain ⟨fails, timesOut, leaves, alone⟩ := gives
  revert acted
  fun_cases scanAct w χ frame <;> intro acted <;> cases acted
  case case18.refl entry rest popped =>
      have taken := congrArg List.length (RingQueue.entries_pop popped)
      rw [List.length_cons] at taken
      simp only [LightensLoad, Lighter, World.backlog, taken, Outcome.next, List.flatten_nil,
        List.append_nil, List.map_singleton, List.sum_singleton, Frame.effort, ScanFrame.effort]
      omega
  all_goals
    refine lightens_of_kept (by simp) ?_
    simp_all [Outcome.next]
  case case29.refl fd index entry found _ =>
      have inside := (List.getElem?_eq_some_iff.mp found).1
      omega
  case case31.refl => omega

/-- A call that gives up gets nearer to its end. -/
theorem act_lightens {frame : Frame} (gives : χ.GivesUp) (works : frame.isStats = false)
    (acted : act w frame χ = some outcome) : LightensLoad w frame outcome := by
  cases frame with
  | hold frame => exact holdAct_lightens gives acted
  | release frame => exact releaseAct_lightens gives acted
  | claim frame => exact claimAct_lightens acted
  | stream frame => exact streamAct_lightens gives acted
  | push frame => exact pushAct_lightens gives acted
  | pull frame => exact pullAct_lightens gives acted
  | set frame => exact setAct_lightens gives acted
  | scan frame => exact scanAct_lightens gives acted
  | stats frame => cases works

/-- Only the joins of stats threads wait for something else than time. -/
theorem waits_of_act_eq_none {frame : Frame} (gives : χ.GivesUp) (waits : act w frame χ = none) :
    (∃ thread ∈ w.heldThreads, frame = .hold (.joinHeldStats thread)) ∨
      ∃ stream keepFrontend, w.statsRunning stream = true ∧
        frame = .release (.streamJoin stream keepFrontend) := by
  obtain ⟨fails, timesOut, leaves, alone⟩ := gives
  revert waits
  cases frame with
  | hold frame =>
      simp only [act]
      fun_cases holdAct w χ frame <;> simp_all
  | release frame =>
      simp only [act]
      fun_cases releaseAct w χ frame <;> simp_all
  | claim frame =>
      simp only [act]
      fun_cases claimAct w χ frame <;> simp_all [World.claim]
  | stream frame =>
      simp only [act]
      fun_cases streamAct w χ frame <;> simp
  | push frame =>
      simp only [act]
      fun_cases pushAct w χ frame <;> simp
  | pull frame =>
      simp only [act]
      fun_cases pullAct w χ frame <;> simp
  | set frame =>
      simp only [act]
      fun_cases setAct w χ frame <;> simp_all
  | scan frame =>
      simp only [act]
      fun_cases scanAct w χ frame <;> simp_all
  | stats frame =>
      simp only [act]
      fun_cases statsAct w χ frame <;> simp

/-- A refresher that is told to stop gets nearer to its end. -/
theorem refresher_lightens {frame : Frame} {thread : Nat} (reads : thread ∈ frame.refresher)
    (stopped : w.tuner.heldStatsStopRequested = true) (χ : Choice) :
    ∃ outcome, act w frame χ = some outcome ∧ LightensLoad w frame outcome := by
  have isOver (fd : Fd) : w.heldStatsOver fd = true := by
    rw [World.heldStatsOver, stopped, Bool.true_or]
  revert reads
  fun_cases Frame.refresher frame <;> intro reads
  · simp only [act, statsAct]
    split
    · exact ⟨_, rfl, lightens_of_kept rfl (by simp [Outcome.next])⟩
    · exact ⟨_, rfl, lightens_of_kept rfl (by simp [Outcome.next])⟩
  · exact ⟨_, rfl, lightens_of_kept rfl (by simp [Outcome.next])⟩
  · exact ⟨_, if_pos (isOver _), lightens_of_kept rfl (by simp [Outcome.next])⟩
  · exact ⟨_, if_pos (isOver _), lightens_of_kept rfl (by simp [Outcome.next])⟩
  · exact absurd reads (Multiset.notMem_zero _)

/-- The stats thread of a stream that is torn down gets nearer to its end. -/
theorem reader_lightens {frame : Frame} {ds : DvbStream} (reads : ds ∈ frame.reader)
    (stopped : w.streamStopped ds = true) (χ : Choice) :
    ∃ outcome, act w frame χ = some outcome ∧ LightensLoad w frame outcome := by
  revert reads
  fun_cases Frame.reader frame <;> intro reads
  · exact ⟨_, rfl, lightens_of_kept rfl (by simp [Outcome.next])⟩
  · cases mem_streamOf.mp reads
    exact ⟨_, if_pos stopped, lightens_of_kept rfl (by simp [Outcome.next])⟩
  · cases mem_streamOf.mp reads
    exact ⟨_, if_pos stopped, lightens_of_kept rfl (by simp [Outcome.next])⟩
  · exact absurd reads (Multiset.notMem_zero _)

end Groups

end HdhrEmu
