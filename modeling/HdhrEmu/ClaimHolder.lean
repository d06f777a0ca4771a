import HdhrEmu.Threads
import Mathlib.Algebra.Order.Group.Nat

/-!
# Who holds the claim

`busy` says that the tuner is claimed; the claim itself is with exactly one of
the calls that are under way.  A stream is active only while the call that
reads from it has not released the tuner.
-/

namespace HdhrEmu

open Interleaving

@[simp]
def ReleaseFrame.claims : ReleaseFrame → Nat
  | .streamTeardown _ keepFrontend | .streamJoin _ keepFrontend => keepFrontend.toNat
  | .tunerRelease | .tunerReleaseClear | .tunerReleasePark | .tunerReleaseParkRestore _
  | .parkInstall _ => 1
  | .parkSpawn _ | .parkExpiry _ => 0

@[simp]
def ClaimFrame.claims : ClaimFrame → Nat
  | .claimClosing _ _ => 1
  | _ => 0

@[simp]
def PushFrame.claims : PushFrame → Nat
  | .pushStart _ | .pushDone _ => 0
  | _ => 1

@[simp]
def PullFrame.claims : PullFrame → Nat
  | .streamChannelToClient _ _ _ | .claimForPeer _ _ => 0
  | _ => 1

@[simp]
def SetFrame.claims : SetFrame → Nat
  | .channelSelect _ _ | .channelSpawn _ => 1
  | _ => 0

@[simp]
def ScanFrame.claims : ScanFrame → Nat
  | .publishScanStatsRead _ _ | .publishScanStats _ _ => 0
  | _ => 1

/-- The share that a call has of the claim. -/
@[simp]
def Frame.claims : Frame → Nat
  | .hold _ | .stats _ => 0
  | .release frame => frame.claims
  | .claim frame => frame.claims
  | .stream _ => 1
  | .push frame => frame.claims
  | .pull frame => frame.claims
  | .set frame => frame.claims
  | .scan frame => frame.claims

/-- An action hands the claim on, takes a free one or gives its own back. -/
def KeepsClaim (w : World) (claims : Nat) (outcome : Outcome) : Prop :=
  outcome.shared.tuner.busy.toNat + claims = w.tuner.busy.toNat +
    ((outcome.frames.map Frame.claims).sum + (outcome.spawned.flatten.map Frame.claims).sum)

@[simp]
theorem claims_stopping (held : Option Fd) (frames : List Frame) :
    ((stopping held frames).map Frame.claims).sum = (frames.map Frame.claims).sum := by
  unfold stopping
  split <;> simp

@[simp]
theorem claims_granted (granted : Granted) : (granted.frames.map Frame.claims).sum = 1 := by
  rcases granted with ⟨_ | _, _⟩ | _ <;> rfl

@[simp]
theorem claims_claimTimedOut (db : ChannelDb) (who : Claimant) :
    ((who.claimTimedOut db).map Frame.claims).sum = 0 := by
  rcases who with ⟨_ | _, _⟩ | _ <;> rfl

@[simp]
theorem claims_openFailed (who : Streamer) : (who.openFailed.map Frame.claims).sum = 1 := by
  cases who <;> rfl

@[simp]
theorem claims_opened (who : Streamer) (stream : DvbStream) :
    ((who.opened stream).map Frame.claims).sum = 1 := by
  cases who <;> rfl

section Groups

variable {w : World} {χ : Choice} {outcome : Outcome}

theorem holdAct_keepsClaim {frame : HoldFrame} (acted : holdAct w χ frame = some outcome) :
    KeepsClaim w 0 outcome := by
  revert acted
  fun_cases holdAct w χ frame <;> intro acted <;> cases acted <;> simp [KeepsClaim]

theorem releaseAct_keepsClaim {frame : ReleaseFrame}
    (held : frame.claims = 1 → w.tuner.busy = true)
    (acted : releaseAct w χ frame = some outcome) : KeepsClaim w frame.claims outcome := by
  revert acted
  fun_cases releaseAct w χ frame <;> intro acted <;> cases acted <;> simp_all [KeepsClaim]

theorem claimAct_keepsClaim {frame : ClaimFrame}
    (acted : claimAct w χ frame = some outcome) : KeepsClaim w frame.claims outcome := by
  revert acted
  fun_cases claimAct w χ frame <;> intro acted <;> cases acted <;> simp_all [KeepsClaim]

theorem streamAct_keepsClaim {frame : StreamFrame}
    (acted : streamAct w χ frame = some outcome) : KeepsClaim w 1 outcome := by
  revert acted
  fun_cases streamAct w χ frame <;> intro acted <;> cases acted <;> simp [KeepsClaim]

theorem pushAct_keepsClaim {frame : PushFrame}
    (acted : pushAct w χ frame = some outcome) : KeepsClaim w frame.claims outcome := by
  revert acted
  fun_cases pushAct w χ frame <;> intro acted <;> cases acted <;> simp [KeepsClaim]

theorem pullAct_keepsClaim {frame : PullFrame}
    (acted : pullAct w χ frame = some outcome) : KeepsClaim w frame.claims outcome := by
  revert acted
  fun_cases pullAct w χ frame <;> intro acted <;> cases acted <;> simp [KeepsClaim]

theorem setAct_keepsClaim {frame : SetFrame}
    (acted : setAct w χ frame = some outcome) : KeepsClaim w frame.claims outcome := by
  revert acted
  fun_cases setAct w χ frame <;> intro acted <;> cases acted <;> simp_all [KeepsClaim]

theorem scanAct_keepsClaim {frame : ScanFrame}
    (acted : scanAct w χ frame = some outcome) : KeepsClaim w frame.claims outcome := by
  revert acted
  fun_cases scanAct w χ frame <;> intro acted <;> cases acted <;> simp [KeepsClaim]

theorem statsAct_keepsClaim {frame : StatsFrame}
    (acted : statsAct w χ frame = some outcome) : KeepsClaim w 0 outcome := by
  revert acted
  fun_cases statsAct w χ frame <;> intro acted <;> cases acted <;> simp [KeepsClaim]

theorem act_keepsClaim {frame : Frame} (held : frame.claims = 1 → w.tuner.busy = true)
    (acted : act w frame χ = some outcome) : KeepsClaim w frame.claims outcome := by
  cases frame with
  | hold frame => exact holdAct_keepsClaim acted
  | release frame => exact releaseAct_keepsClaim held acted
  | claim frame => exact claimAct_keepsClaim acted
  | stream frame => exact streamAct_keepsClaim acted
  | push frame => exact pushAct_keepsClaim acted
  | pull frame => exact pullAct_keepsClaim acted
  | set frame => exact setAct_keepsClaim acted
  | scan frame => exact scanAct_keepsClaim acted
  | stats frame => exact statsAct_keepsClaim acted

end Groups

theorem arrives_claims : ∀ frame, arrives frame = true → frame.claims = 0 := by
  simp [forall_arrives]

section Reachable

variable {guard : Guard World Frame Choice} {db : ChannelDb} {config : Config World Frame}

/-- The claim is taken if and only if exactly one call has it. -/
theorem busy_eq_tally_claims (reachable : machine.Reachable guard (start db) config) :
    config.shared.tuner.busy.toNat = tally Frame.claims config.frames := by
  have balance := reachable.balanced (fun _ _ => True)
    (fun w => w.tuner.busy.toNat) (fun _ => 0) Frame.claims (fun _ _ => trivial) rfl
    arrives_claims ?_
  · simpa using balance
  · intro w frame others χ outcome _ covered acted
    have held : frame.claims = 1 → w.tuner.busy = true := by
      intro one
      have := Bool.toNat_le w.tuner.busy
      rw [one] at covered
      exact Bool.toNat_eq_one.mp (by omega)
    simpa [KeepsClaim] using act_keepsClaim held acted

end Reachable

/-- The calls that may leave the stream active. -/
@[simp]
def Frame.streams : Frame → Nat
  | .push (.pushLoop _) | .push (.pushRead _) | .push (.pushSend _) | .push (.pushEnd _)
  | .pull (.pullStream _) | .pull (.releaseHttpPull _)
  | .release .tunerRelease | .release .tunerReleasePark => 1
  | _ => 0

theorem streams_le_claims (frame : Frame) : frame.streams ≤ frame.claims := by
  fun_cases Frame.streams frame <;> simp

/-- The streaming call after an action, or the stream is no longer active. -/
def KeepsStream (w : World) (streams : Nat) (outcome : Outcome) : Prop :=
  outcome.shared.tuner.activeStream = none ∨
    outcome.shared.tuner.activeStream.isSome.toNat + streams ≤ w.tuner.activeStream.isSome.toNat +
      ((outcome.frames.map Frame.streams).sum + (outcome.spawned.flatten.map Frame.streams).sum)

@[simp]
theorem streams_stopping (held : Option Fd) (frames : List Frame) :
    ((stopping held frames).map Frame.streams).sum = (frames.map Frame.streams).sum := by
  unfold stopping
  split <;> simp

section Groups

variable {w : World} {χ : Choice} {outcome : Outcome}

theorem holdAct_keepsStream {frame : HoldFrame} (acted : holdAct w χ frame = some outcome) :
    KeepsStream w 0 outcome := by
  revert acted
  fun_cases holdAct w χ frame <;> intro acted <;> cases acted <;> simp [KeepsStream]

theorem releaseAct_keepsStream {frame : ReleaseFrame}
    (acted : releaseAct w χ frame = some outcome) :
    KeepsStream w (Frame.release frame).streams outcome := by
  revert acted
  fun_cases releaseAct w χ frame <;> intro acted <;> cases acted <;> simp_all [KeepsStream]
  -- The stream that is restored is read by the release that follows.
  exact .inr ((Bool.toNat_le _).trans (Nat.le_add_left 1 _))

theorem claimAct_keepsStream {frame : ClaimFrame}
    (acted : claimAct w χ frame = some outcome) : KeepsStream w 0 outcome := by
  revert acted
  fun_cases claimAct w χ frame <;> intro acted <;> cases acted <;> simp_all [KeepsStream]

theorem streamAct_keepsStream {frame : StreamFrame}
    (acted : streamAct w χ frame = some outcome) : KeepsStream w 0 outcome := by
  revert acted
  fun_cases streamAct w χ frame <;> intro acted <;> cases acted <;> simp [KeepsStream]

theorem pushAct_keepsStream {frame : PushFrame}
    (acted : pushAct w χ frame = some outcome) :
    KeepsStream w (Frame.push frame).streams outcome := by
  revert acted
  fun_cases pushAct w χ frame <;> intro acted <;> cases acted <;> simp [KeepsStream]

theorem pullAct_keepsStream {frame : PullFrame}
    (acted : pullAct w χ frame = some outcome) :
    KeepsStream w (Frame.pull frame).streams outcome := by
  revert acted
  fun_cases pullAct w χ frame <;> intro acted <;> cases acted <;> simp [KeepsStream]

theorem setAct_keepsStream {frame : SetFrame}
    (acted : setAct w χ frame = some outcome) : KeepsStream w 0 outcome := by
  revert acted
  fun_cases setAct w χ frame <;> intro acted <;> cases acted <;> simp_all [KeepsStream]

theorem scanAct_keepsStream {frame : ScanFrame}
    (acted : scanAct w χ frame = some outcome) : KeepsStream w 0 outcome := by
  revert acted
  fun_cases scanAct w χ frame <;> intro acted <;> cases acted <;> simp [KeepsStream]

theorem statsAct_keepsStream {frame : StatsFrame}
    (acted : statsAct w χ frame = some outcome) : KeepsStream w 0 outcome := by
  revert acted
  fun_cases statsAct w χ frame <;> intro acted <;> cases acted <;> simp [KeepsStream]

theorem act_keepsStream {frame : Frame} (acted : act w frame χ = some outcome) :
    KeepsStream w frame.streams outcome := by
  cases frame with
  | hold frame => exact holdAct_keepsStream acted
  | release frame => exact releaseAct_keepsStream acted
  | claim frame => exact claimAct_keepsStream acted
  | stream frame => exact streamAct_keepsStream acted
  | push frame => exact pushAct_keepsStream acted
  | pull frame => exact pullAct_keepsStream acted
  | set frame => exact setAct_keepsStream acted
  | scan frame => exact scanAct_keepsStream acted
  | stats frame => exact statsAct_keepsStream acted

end Groups

section Reachable

variable {guard : Guard World Frame Choice} {db : ChannelDb} {config : Config World Frame}

theorem active_le_tally_streams (reachable : machine.Reachable guard (start db) config) :
    config.shared.tuner.activeStream.isSome.toNat ≤ tally Frame.streams config.frames := by
  refine reachable.invariant
    (fun w frames => w.tuner.activeStream.isSome.toNat ≤ tally Frame.streams frames)
    (Nat.zero_le _) ?_ ?_
  · intro w frames frame le _
    rw [tally_cons]
    omega
  · intro w frame others χ outcome le _ acted
    rw [tally_cons] at le
    rw [tally_add, tally_add, tally_coe, tally_coe]
    rcases act_keepsStream acted with idle | kept
    · simp [idle]
    · omega

/-- The tuner is busy while a stream is active. -/
theorem busy_of_active (reachable : machine.Reachable guard (start db) config)
    (active : config.shared.tuner.activeStream.isSome = true) :
    config.shared.tuner.busy = true := by
  have streaming := active_le_tally_streams reachable
  have claiming := tally_mono streams_le_claims config.frames
  rw [active, Bool.toNat_true] at streaming
  rw [← busy_eq_tally_claims reachable] at claiming
  have := Bool.toNat_le config.shared.tuner.busy
  exact Bool.toNat_eq_one.mp (by omega)

end Reachable

end HdhrEmu
