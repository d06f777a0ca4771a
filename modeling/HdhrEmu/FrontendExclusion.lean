import HdhrEmu.Ownership

/-!
# Opening the frontend

A frontend accepts one opener at a time, so nothing may call
`dvb_frontend_open` while another descriptor is open.  A call is engaged from
the moment it has taken the frontend (by a claim, or by passing the
`active_stream` check of `tuner_open_hold`) until it has closed its descriptor
or has handed it to the tuner record.  Claims and holds do not exclude each
other, and neither looks for calls that are still engaged: as long as none of
them begins while another call is engaged, every open finds the node closed.
-/

namespace HdhrEmu

open Interleaving

@[simp]
def HoldFrame.engaged : HoldFrame → Nat
  | .frontendClose _ | .holdReopen _ _ | .holdTune _ _ | .installHoldFd _ _
  | .tunerOpenHoldFromFd _ => 1
  | _ => 0

@[simp]
def ReleaseFrame.engaged : ReleaseFrame → Nat
  | .streamTeardown _ _ | .streamJoin _ _ | .parkInstall _ => 1
  | .tunerReleaseParkRestore stream => stream.isSome.toNat
  | _ => 0

@[simp]
def ClaimFrame.engaged : ClaimFrame → Nat
  | .claimClosing _ _ => 1
  | _ => 0

@[simp]
def PushFrame.engaged : PushFrame → Nat
  | .pushBind _ _ | .pushSetStream _ _ => 1
  | _ => 0

@[simp]
def PullFrame.engaged : PullFrame → Nat
  | .pullSetPeer _ _ _ | .pullBind _ _ | .pullSetStream _ _ => 1
  | _ => 0

@[simp]
def SetFrame.engaged : SetFrame → Nat
  | .channelSelect _ _ | .channelSpawn _ => 1
  | _ => 0

@[simp]
def ScanFrame.engaged : ScanFrame → Nat
  | .scanThread _ | .scanCloseStale _ _ | .scanOpen _ | .startupOpen | .startupTune _ _
  | .startupWaitLock _ _ => 1
  | .scanTune job | .scanWaitLock job _ | .scanRecord job _ | .scanFinalize job _
  | .scanReadPsip job | .scanDequeue job | .scanExit job => job.ffd.isSome.toNat
  | .publishScanStatsRead _ _ | .publishScanStats _ _ | .scanWorkerDone => 0

/-- The call has the frontend to itself, or is about to. -/
@[simp]
def Frame.engaged : Frame → Nat
  | .hold frame => frame.engaged
  | .release frame => frame.engaged
  | .claim frame => frame.engaged
  | .stream _ => 1
  | .push frame => frame.engaged
  | .pull frame => frame.engaged
  | .set frame => frame.engaged
  | .scan frame => frame.engaged
  | .stats _ => 0

/-- What the tuner record holds open. -/
def Tuner.engaged (t : Tuner) : Nat :=
  t.heldFd.isSome.toNat + t.parkedFd.isSome.toNat + t.activeStream.isSome.toNat

/-- The action takes the frontend: a claim that succeeds, or a hold that is
opened because nothing is streaming. -/
def takesFrontend (w : World) : Frame → Bool
  | .claim (.tunerTryClaim _ _ _) | .claim (.tunerTryClaimWait _)
  | .claim (.tunerTryClaimWaiting _) | .set (.channelClaim _) => !w.tuner.busy
  | .hold (.tunerOpenHold _) => w.tuner.activeStream.isNone
  | _ => false

/-- The frontend is only taken while no other call is engaged. -/
def exclusiveTakes : Guard World Frame Choice := fun w frame others _ =>
  !takesFrontend w frame || others.all fun other => other.engaged == 0

/-- The next action of the call is `dvb_frontend_open`. -/
def Frame.opens : Frame → Bool
  | .hold (.holdReopen [] _) | .stream (.dvbStreamOpen _ none) | .stream (.streamReopen _ _)
  | .scan (.scanOpen _) | .scan .startupOpen => true
  | _ => false

/-- Every open finds the node closed, and nobody with a descriptor of it. -/
def OpensAlone (config : Config World Frame) : Prop :=
  ∀ frame ∈ config.frames, frame.opens = true →
    config.shared.node.opener = none ∧ config.shared.fds = 0 ∧
      tally Frame.fds config.frames = 0

/-- An action without a taking keeps the number of engagements down. -/
def KeepsEngaged (w : World) (engaged : Nat) (outcome : Outcome) : Prop :=
  outcome.shared.tuner.engaged + ((outcome.frames.map Frame.engaged).sum +
    (outcome.spawned.flatten.map Frame.engaged).sum) ≤ w.tuner.engaged + engaged

/-- The frontend has been taken: nothing is left to the tuner record. -/
def TakesAll (w : World) (outcome : Outcome) : Prop :=
  outcome.shared.tuner.engaged = w.tuner.activeStream.isSome.toNat ∧
    (outcome.frames.map Frame.engaged).sum + (outcome.spawned.flatten.map Frame.engaged).sum = 1

@[simp]
theorem engaged_stopping (held : Option Fd) (frames : List Frame) :
    ((stopping held frames).map Frame.engaged).sum = (frames.map Frame.engaged).sum := by
  unfold stopping
  split <;> simp

@[simp]
theorem engaged_granted (granted : Granted) : (granted.frames.map Frame.engaged).sum = 1 := by
  rcases granted with ⟨_ | _, _⟩ | _ <;> rfl

@[simp]
theorem engaged_claimTimedOut (db : ChannelDb) (who : Claimant) :
    ((who.claimTimedOut db).map Frame.engaged).sum = 0 := by
  rcases who with ⟨_ | _, _⟩ | _ <;> rfl

@[simp]
theorem engaged_openFailed (who : Streamer) : (who.openFailed.map Frame.engaged).sum = 0 := by
  cases who <;> rfl

@[simp]
theorem engaged_opened (who : Streamer) (stream : DvbStream) :
    ((who.opened stream).map Frame.engaged).sum = 1 := by
  cases who <;> rfl

theorem engaged_parkExpire (t : Tuner) (generation : UInt32) :
    (t.parkExpire generation).parkedFd.isSome.toNat + (t.parkExpired generation).isSome.toNat =
      t.parkedFd.isSome.toNat := by
  unfold Tuner.parkExpire Tuner.parkExpired
  split <;> simp

section Groups

variable {w : World} {χ : Choice} {outcome : Outcome}

theorem holdAct_engaged {frame : HoldFrame} (acted : holdAct w χ frame = some outcome) :
    KeepsEngaged w frame.engaged outcome ∨
      takesFrontend w frame = true ∧ TakesAll w outcome := by
  revert acted
  fun_cases holdAct w χ frame <;> intro acted <;> cases acted <;>
    simp_all [KeepsEngaged, TakesAll, takesFrontend, Tuner.engaged] <;> omega

theorem releaseAct_engaged {frame : ReleaseFrame} (acted : releaseAct w χ frame = some outcome) :
    KeepsEngaged w frame.engaged outcome := by
  have expire := engaged_parkExpire w.tuner
  revert acted
  fun_cases releaseAct w χ frame <;> intro acted <;> cases acted <;>
    simp_all [KeepsEngaged, Tuner.engaged]
  case case13.refl => omega
  case case17.refl generation fd found =>
      have taken := expire generation
      rw [found, Option.isSome_some, Bool.toNat_true] at taken
      omega
  case case18.refl generation found =>
      have kept := expire generation
      rw [found, Option.isSome_none, Bool.toNat_false] at kept
      omega

theorem claimAct_engaged {frame : ClaimFrame} (acted : claimAct w χ frame = some outcome) :
    KeepsEngaged w frame.engaged outcome ∨
      takesFrontend w frame = true ∧ TakesAll w outcome := by
  revert acted
  fun_cases claimAct w χ frame <;> intro acted <;> cases acted <;>
    simp_all [KeepsEngaged, TakesAll, takesFrontend, Tuner.engaged]

theorem streamAct_engaged {frame : StreamFrame} (acted : streamAct w χ frame = some outcome) :
    KeepsEngaged w 1 outcome := by
  revert acted
  fun_cases streamAct w χ frame <;> intro acted <;> cases acted <;>
    simp [KeepsEngaged, Tuner.engaged]

theorem pushAct_engaged {frame : PushFrame} (acted : pushAct w χ frame = some outcome) :
    KeepsEngaged w frame.engaged outcome := by
  revert acted
  fun_cases pushAct w χ frame <;> intro acted <;> cases acted <;>
    simp [KeepsEngaged, Tuner.engaged]

theorem pullAct_engaged {frame : PullFrame} (acted : pullAct w χ frame = some outcome) :
    KeepsEngaged w frame.engaged outcome := by
  revert acted
  fun_cases pullAct w χ frame <;> intro acted <;> cases acted <;>
    simp [KeepsEngaged, Tuner.engaged]

theorem setAct_engaged {frame : SetFrame} (acted : setAct w χ frame = some outcome) :
    KeepsEngaged w frame.engaged outcome ∨
      takesFrontend w frame = true ∧ TakesAll w outcome := by
  revert acted
  fun_cases setAct w χ frame <;> intro acted <;> cases acted <;>
    simp_all [KeepsEngaged, TakesAll, takesFrontend, Tuner.engaged]

theorem scanAct_engaged {frame : ScanFrame} (acted : scanAct w χ frame = some outcome) :
    KeepsEngaged w frame.engaged outcome := by
  revert acted
  fun_cases scanAct w χ frame <;> intro acted <;> cases acted <;>
    simp_all [KeepsEngaged, Tuner.engaged]

theorem statsAct_engaged {frame : StatsFrame} (acted : statsAct w χ frame = some outcome) :
    KeepsEngaged w 0 outcome := by
  revert acted
  fun_cases statsAct w χ frame <;> intro acted <;> cases acted <;>
    simp [KeepsEngaged, Tuner.engaged]

theorem act_engaged {frame : Frame} (acted : act w frame χ = some outcome) :
    KeepsEngaged w frame.engaged outcome ∨
      takesFrontend w frame = true ∧ TakesAll w outcome := by
  cases frame with
  | hold frame => exact holdAct_engaged acted
  | release frame => exact .inl (releaseAct_engaged acted)
  | claim frame => exact claimAct_engaged acted
  | stream frame => exact .inl (streamAct_engaged acted)
  | push frame => exact .inl (pushAct_engaged acted)
  | pull frame => exact .inl (pullAct_engaged acted)
  | set frame => exact setAct_engaged acted
  | scan frame => exact .inl (scanAct_engaged acted)
  | stats frame => exact .inl (statsAct_engaged acted)

end Groups

theorem arrives_engaged : ∀ frame, arrives frame = true → frame.engaged = 0 := by
  simp [forall_arrives]

theorem idle_of_takes {w : World} {frame : Frame}
    (busy : w.tuner.activeStream.isSome = true → w.tuner.busy = true)
    (takes : takesFrontend w frame = true) : w.tuner.activeStream = none := by
  cases active : w.tuner.activeStream with
  | none => rfl
  | some stream =>
      have claimed : w.tuner.busy = true := busy (by rw [active]; rfl)
      revert takes
      fun_cases takesFrontend w frame <;> simp [claimed, active]

theorem tally_engaged_eq_zero {w : World} {frame : Frame} {others : List Frame} {χ : Choice}
    (allowed : exclusiveTakes w frame others χ = true) (takes : takesFrontend w frame = true) :
    tally Frame.engaged (others : Multiset Frame) = 0 := by
  rw [tally_eq_zero]
  simpa [exclusiveTakes, takes] using allowed

section Reachable

variable {db : ChannelDb} {config : Config World Frame}

/-- At most one call or record field is engaged at any time. -/
theorem engaged_le_one (reachable : machine.Reachable exclusiveTakes (start db) config) :
    config.shared.tuner.engaged + tally Frame.engaged config.frames ≤ 1 := by
  refine reachable.invariant_of_known
    (fun w _ => w.tuner.activeStream.isSome = true → w.tuner.busy = true)
    (fun w frames => w.tuner.engaged + tally Frame.engaged frames ≤ 1)
    (fun _ => busy_of_active) (Nat.zero_le 1) ?_ ?_
  · intro w frames frame le arriving
    rw [tally_cons, arrives_engaged _ arriving, zero_add]
    exact le
  · intro w frame others χ outcome busy le allowed acted
    rw [tally_cons] at le
    rw [tally_add, tally_add, tally_coe, tally_coe]
    rcases act_engaged acted with kept | ⟨takes, record, calls⟩
    · unfold KeepsEngaged at kept
      omega
    · rw [idle_of_takes busy takes] at record
      rw [tally_engaged_eq_zero allowed takes, record]
      simp only [Option.isSome_none, Bool.toNat_false]
      omega

theorem engaged_of_opens {frame : Frame} (opens : frame.opens = true) : frame.engaged = 1 := by
  revert opens
  fun_cases Frame.opens frame <;> simp

theorem fds_of_opens {frame : Frame} (opens : frame.opens = true) : frame.fds = 0 := by
  revert opens
  fun_cases Frame.opens frame <;> simp

/-- A call that is not engaged has no descriptor. -/
theorem fds_eq_zero_of_engaged {frame : Frame} (idle : frame.engaged = 0) : frame.fds = 0 := by
  cases frame with
  | hold frame => cases frame <;> simp_all
  | release frame => cases frame <;> simp_all
  | claim frame => cases frame <;> simp_all
  | stream frame => simp at idle
  | push frame => cases frame <;> simp_all
  | pull frame => cases frame <;> simp_all
  | set frame => cases frame <;> simp_all
  | scan frame => cases frame <;> simp_all
  | stats frame => rfl

theorem fds_eq_zero_of_record {w : World} (idle : w.tuner.engaged = 0) : w.fds = 0 := by
  unfold Tuner.engaged at idle
  simp only [Nat.add_eq_zero_iff, Bool.toNat_eq_zero, Option.isSome_eq_false_iff,
    Option.isNone_iff_eq_none] at idle
  obtain ⟨⟨held, parked⟩, active⟩ := idle
  simp [World.fds, held, parked, active]

/-- As long as the frontend is only taken while no other call is engaged, no
open is executed while a descriptor of the node is open. -/
theorem frontend_opens_alone (reachable : machine.Reachable exclusiveTakes (start db) config) :
    OpensAlone config := by
  intro frame member opens
  obtain ⟨others, frames⟩ := Multiset.exists_cons_of_mem member
  have le := engaged_le_one reachable
  rw [frames, tally_cons, engaged_of_opens opens] at le
  have record : config.shared.fds = 0 := fds_eq_zero_of_record (by omega)
  have calls : tally Frame.fds config.frames = 0 := by
    have idle : tally Frame.engaged others = 0 := by omega
    rw [tally_eq_zero] at idle
    rw [frames, tally_cons, fds_of_opens opens, zero_add, tally_eq_zero]
    exact fun other among => fds_eq_zero_of_engaged (idle other among)
  have open_ := nodeFds_eq reachable
  rw [record, calls, add_zero] at open_
  refine ⟨?_, record, calls⟩
  simpa [World.nodeFds, fdsOf, fdsIn] using open_

end Reachable

/-- A scan that locks and leaves its hold, and then a `vchannel` SET that
replaces the hold. -/
def vchannelAfterScan : Schedule :=
  .arrive (.set (.channelSet "us-bcast:7".toList)) :: steps 0 4 ++ steps 1 11 ++
    .act 1 { timedOut := true } :: steps 1 6 ++
    .arrive (.set (.vchannelSet ⟨2, 1⟩)) :: steps 3 7 ++ steps 2 1 ++ steps 3 2

theorem frontend_opens_alone_after_scan :
    ∃ config, machine.Reachable exclusiveTakes (start oneStation) config ∧
      (∃ frame ∈ config.threads.flatten, frame.opens = true) ∧ OpensAlone config := by
  obtain ⟨config, reachable, opening⟩ := machine.reachable_of_run exclusiveTakes
    (start oneStation) vchannelAfterScan
    (fun config => ∃ frame ∈ config.threads.flatten, frame.opens = true) (by decide +kernel)
  exact ⟨config, reachable, opening, frontend_opens_alone reachable⟩

/-- A `vchannel` SET that begins after the scan worker has opened the frontend. -/
def vchannelDuringScan : Schedule :=
  .arrive (.set (.channelSet "us-bcast:7".toList)) :: steps 0 4 ++ steps 1 2 ++
    .arrive (.set (.vchannelSet ⟨2, 1⟩)) :: steps 2 6

instance (config : Config World Frame) : Decidable (OpensAlone config) :=
  inferInstanceAs (Decidable (∀ frame ∈ config.frames, _))

theorem vchannel_opens_during_scan :
    ∃ config, machine.Reachable Guard.all (start oneStation) config ∧ ¬ OpensAlone config :=
  machine.reachable_of_run Guard.all (start oneStation) vchannelDuringScan (fun config => ¬ OpensAlone config)
    (by decide +kernel)

end HdhrEmu
