import HdhrEmu.ClaimHolder
import Mathlib.Data.Multiset.OrderedMonoid

/-!
# Who owns an open frontend descriptor

A descriptor of the frontend node is held by the tuner (as a hold, a parked
descriptor or the frontend of the active stream) or is a local variable of
exactly one call.  Every action only moves descriptors around, apart from the
ones that open or close the node; the descriptors that are owned are therefore
exactly the ones the kernel has open, and there is never more than one.
-/

namespace HdhrEmu

open Interleaving

/-- The descriptors in a list. -/
def fdsIn (fds : List Fd) : Multiset Fd :=
  (fds : Multiset Fd)

/-- The descriptor in an optional field. -/
def fdsOf (fd : Option Fd) : Multiset Fd :=
  fdsIn fd.toList

@[simp]
theorem fdsOf_none : fdsOf none = 0 :=
  rfl

@[simp]
theorem fdsIn_nil : fdsIn [] = 0 :=
  rfl

@[simp]
theorem fdsIn_cons (fd : Fd) (fds : List Fd) :
    fdsIn (fd :: fds) = fdsOf (some fd) + fdsIn fds :=
  rfl

@[simp]
theorem fdsIn_append (first second : List Fd) :
    fdsIn (first ++ second) = fdsIn first + fdsIn second :=
  (Multiset.coe_add first second).symm

@[simp]
theorem fdsIn_toList (fd : Option Fd) : fdsIn fd.toList = fdsOf fd :=
  rfl

@[simp]
def HoldFrame.fds : HoldFrame → Multiset Fd
  | .frontendClose fd | .holdTune fd _ | .tunerOpenHoldFromFd fd => fdsOf (some fd)
  | .holdReopen olds _ => fdsIn olds
  | .installHoldFd olds fd => fdsOf (some fd) + fdsIn olds
  | _ => 0

@[simp]
def ReleaseFrame.fds : ReleaseFrame → Multiset Fd
  | .streamTeardown stream _ | .streamJoin stream _ => fdsOf (some stream.frontendFd)
  | .tunerReleaseParkRestore stream => fdsOf (stream.map DvbStream.frontendFd)
  | .parkInstall fd => fdsOf (some fd)
  | _ => 0

def Granted.fds : Granted → Multiset Fd
  | .streamer _ reused => fdsOf reused
  | .startupScan => 0

@[simp]
def ClaimFrame.fds : ClaimFrame → Multiset Fd
  | .claimClosing olds granted => fdsIn olds + granted.fds
  | _ => 0

@[simp]
def StreamFrame.fds : StreamFrame → Multiset Fd
  | .dvbStreamOpen _ adopt => fdsOf adopt
  | .streamTune _ _ fd _ | .streamWaitLock _ _ fd _ | .streamReopenClose _ _ fd
  | .streamRetune _ _ fd | .streamStart _ fd => fdsOf (some fd)
  | .streamReopen _ _ => 0

@[simp]
def PushFrame.fds : PushFrame → Multiset Fd
  | .pushBind _ stream | .pushSetStream _ stream => fdsOf (some stream.frontendFd)
  | _ => 0

@[simp]
def PullFrame.fds : PullFrame → Multiset Fd
  | .pullSetPeer _ _ reused => fdsOf reused
  | .pullBind _ stream | .pullSetStream _ stream => fdsOf (some stream.frontendFd)
  | _ => 0

@[simp]
def SetFrame.fds : SetFrame → Multiset Fd
  | .channelSelect _ staleHeldFd => fdsOf staleHeldFd
  | .channelSpawn ctx => fdsOf ctx.staleHeldFd
  | _ => 0

@[simp]
def ScanFrame.fds : ScanFrame → Multiset Fd
  | .scanThread ctx => fdsOf ctx.staleHeldFd
  | .scanCloseStale _ fd | .startupTune fd _ | .startupWaitLock fd _ => fdsOf (some fd)
  | .scanTune job | .scanWaitLock job _ | .scanRecord job _ | .scanFinalize job _ | .scanReadPsip job
  | .scanDequeue job | .scanExit job => fdsOf job.ffd
  | _ => 0

/-- The descriptors a call has in its local variables. -/
@[simp]
def Frame.fds : Frame → Multiset Fd
  | .hold frame => frame.fds
  | .release frame => frame.fds
  | .claim frame => frame.fds
  | .stream frame => frame.fds
  | .push frame => frame.fds
  | .pull frame => frame.fds
  | .set frame => frame.fds
  | .scan frame => frame.fds
  | .stats _ => 0

/-- The descriptors the tuner record holds. -/
def World.fds (w : World) : Multiset Fd :=
  fdsOf w.tuner.heldFd + fdsOf w.tuner.parkedFd +
    fdsOf (w.tuner.activeStream.map DvbStream.frontendFd)

/-- The descriptors the kernel has open. -/
def World.nodeFds (w : World) : Multiset Fd :=
  fdsOf w.node.opener

theorem card_fdsOf_some (fd : Fd) : (fdsOf (some fd)).card = 1 :=
  rfl

theorem card_nodeFds (w : World) : w.nodeFds.card ≤ 1 := by
  unfold World.nodeFds
  cases w.node.opener with
  | none => exact Nat.zero_le _
  | some fd => exact Nat.le_refl _

/-- A descriptor that is owned is the one that is open, and nothing else is owned. -/
theorem opener_of_covered {w : World} {rest : Multiset Fd} {fd : Fd}
    (covered : rest + fdsOf (some fd) ≤ w.nodeFds) : w.node.opener = some fd ∧ rest = 0 := by
  have card := (Multiset.card_le_card covered).trans (card_nodeFds w)
  have empty : rest = 0 := by
    rw [Multiset.card_add, card_fdsOf_some] at card
    exact Multiset.card_eq_zero.mp (by omega)
  subst empty
  have member : fd ∈ w.nodeFds := Multiset.mem_of_le covered (by simp [fdsOf, fdsIn])
  simpa [World.nodeFds, fdsOf, fdsIn] using member

@[simp]
theorem opener_tune (node : Node) (fd : Fd) (tuning : Tuning) :
    (node.tune fd tuning).opener = node.opener := by
  unfold Node.tune
  split
  · rename_i same
    exact same.symm
  · rfl

theorem open?_eq_some {node next : Node} {fd : Fd} {ok : Bool}
    (opened : node.open? fd ok = some next) :
    node.opener = none ∧ next = ⟨some fd, none⟩ := by
  unfold Node.open? at opened
  split at opened
  · rename_i possible
    cases opened
    exact ⟨possible.1, rfl⟩
  · cases opened

/-- An action accounts for the descriptors it starts from: `fds` are those of
the acting call. -/
def Accounts (w : World) (fds : Multiset Fd) (outcome : Outcome) : Prop :=
  outcome.shared.nodeFds + (w.fds + fds) =
    w.nodeFds + (outcome.shared.fds +
      ((outcome.frames.map Frame.fds).sum + (outcome.spawned.flatten.map Frame.fds).sum))

@[simp]
theorem fds_stopping (held : Option Fd) (frames : List Frame) :
    ((stopping held frames).map Frame.fds).sum = (frames.map Frame.fds).sum := by
  unfold stopping
  split <;> simp

@[simp]
theorem fds_granted (granted : Granted) :
    (granted.frames.map Frame.fds).sum = granted.fds := by
  rcases granted with ⟨_ | _, _⟩ | _ <;> simp [Granted.frames, Granted.fds]

@[simp]
theorem fds_claimTimedOut (db : ChannelDb) (who : Claimant) :
    ((who.claimTimedOut db).map Frame.fds).sum = 0 := by
  rcases who with ⟨_ | _, _⟩ | _ <;> rfl

@[simp]
theorem fds_openFailed (who : Streamer) : (who.openFailed.map Frame.fds).sum = 0 := by
  cases who <;> rfl

@[simp]
theorem fds_opened (who : Streamer) (stream : DvbStream) :
    ((who.opened stream).map Frame.fds).sum = fdsOf (some stream.frontendFd) := by
  cases who <;> simp [Streamer.opened]

/-- A claim hands every detached descriptor to its caller or closes it. -/
theorem fds_detached (detached : Detached) (who : Claimant) :
    fdsIn (detached.closing who.want) + (who.granted (detached.reused who.want)).fds =
      fdsOf detached.held + fdsOf detached.parked := by
  unfold Detached.closing Detached.reused
  cases who with
  | streamer streamer want =>
      cases detached.held <;> simp [Claimant.want, Claimant.granted, Granted.fds]
      split <;> simp [add_comm]
  | startupScan =>
      cases detached.held <;>
        simp [Claimant.want, Claimant.granted, Granted.fds, Detached.reusesHeld]

theorem fds_parkExpire (t : Tuner) (generation : UInt32) :
    fdsOf (t.parkExpire generation).parkedFd + fdsOf (t.parkExpired generation) =
      fdsOf t.parkedFd := by
  unfold Tuner.parkExpire Tuner.parkExpired
  split <;> simp

section Rules

variable {w : World} {fds : Multiset Fd} {outcome next : Outcome}

/-- The node stays open or closed, and the owned descriptors are moved around. -/
theorem accounts_same (opener : next.shared.node.opener = w.node.opener)
    (kept : w.fds + fds = next.shared.fds +
      ((next.frames.map Frame.fds).sum + (next.spawned.flatten.map Frame.fds).sum))
    (acted : some next = some outcome) : Accounts w fds outcome := by
  cases acted
  simp [Accounts, kept, World.nodeFds, opener]

theorem accounts_open {node : Node} {frames : List Frame} {fd : Fd} {ok : Bool}
    (opened : w.node.open? fd ok = some node)
    (kept : fds + fdsOf (some fd) = (frames.map Frame.fds).sum)
    (acted : w.onNode node frames = some outcome) : Accounts w fds outcome := by
  obtain ⟨closed, rfl⟩ := open?_eq_some opened
  cases acted
  simp only [Accounts, World.nodeFds, closed, ← kept, World.fds, fdsOf_none, List.flatten_nil,
    List.map_nil, List.sum_nil]
  abel

/-- The descriptor that is closed is owned by the acting call. -/
theorem accounts_close {frames : List Frame} {fd : Fd} (covered : w.fds + fds ≤ w.nodeFds)
    (kept : fds = (frames.map Frame.fds).sum + fdsOf (some fd))
    (acted : w.onNode (w.node.close fd) frames = some outcome) : Accounts w fds outcome := by
  have owned : w.node.opener = some fd := by
    rw [kept, ← add_assoc] at covered
    exact (opener_of_covered covered).1
  cases acted
  simp only [Accounts, World.nodeFds, Node.close, owned, if_true, kept, World.fds, fdsOf_none,
    List.flatten_nil, List.map_nil, List.sum_nil]
  abel

/-- Two descriptors are never owned at once. -/
theorem not_covered_two {rest : Multiset Fd} {first second : Fd} :
    ¬ rest + (fdsOf (some first) + fdsOf (some second)) ≤ w.nodeFds := by
  intro covered
  have card := (Multiset.card_le_card covered).trans (card_nodeFds w)
  rw [Multiset.card_add, Multiset.card_add, card_fdsOf_some, card_fdsOf_some] at card
  omega

end Rules

section Groups

variable {w : World} {χ : Choice} {outcome : Outcome}

theorem holdAct_accounts {frame : HoldFrame} (covered : w.fds + frame.fds ≤ w.nodeFds)
    (acted : holdAct w χ frame = some outcome) : Accounts w frame.fds outcome := by
  revert acted
  fun_cases holdAct w χ frame <;> intro acted
  all_goals first
    | cases acted; done
    | exact accounts_close covered (by simp; try abel) acted
    | exact accounts_open ‹_› (by simp) acted
    | exact accounts_same (by simp) (by simp_all [World.fds]; try abel) acted

/-- A call with a descriptor leaves none to the tuner record. -/
theorem record_empty_of_covered {fd : Fd} (covered : w.fds + fdsOf (some fd) ≤ w.nodeFds) :
    w.tuner.heldFd = none ∧ w.tuner.parkedFd = none ∧ w.tuner.activeStream = none := by
  have empty := (opener_of_covered covered).2
  simpa [World.fds, fdsOf, fdsIn, and_assoc] using empty

theorem releaseAct_accounts {frame : ReleaseFrame} (covered : w.fds + frame.fds ≤ w.nodeFds)
    (idle : ∀ stream, frame = .tunerReleaseParkRestore stream → w.tuner.activeStream = none)
    (acted : releaseAct w χ frame = some outcome) : Accounts w frame.fds outcome := by
  revert acted
  fun_cases releaseAct w χ frame <;> intro acted
  case case12 => exact accounts_same rfl (by simp [World.fds, idle _ rfl]) acted
  case case13 =>
      obtain ⟨-, unparked, -⟩ := record_empty_of_covered covered
      exact accounts_same rfl (by simp [World.fds, unparked]; abel) acted
  case case17 generation fd found =>
      have taken := fds_parkExpire w.tuner generation
      rw [found] at taken
      exact accounts_same rfl (by simp [World.fds, ← taken]; abel) acted
  case case18 generation found =>
      have taken := fds_parkExpire w.tuner generation
      rw [found] at taken
      exact accounts_same rfl (by simp [World.fds, ← taken]) acted
  all_goals first
    | cases acted; done
    | exact accounts_same (by simp) (by simp_all [World.fds]; try abel) acted

theorem claim_accounts {t : Tuner} {who : Claimant} (acted : w.claim t who = some outcome)
    (held : t.detached = w.tuner.detached) (active : t.activeStream = w.tuner.activeStream) :
    Accounts w 0 outcome := by
  refine accounts_same rfl ?_ acted
  have handed := fds_detached t.detached who
  have held' : t.detached.held = w.tuner.heldFd := by rw [held]; rfl
  have parked : t.detached.parked = w.tuner.parkedFd := by rw [held]; rfl
  rw [held', parked] at handed
  simp only [World.fds, fds_stopping, Tuner.claimed, active, List.map_cons, List.map_nil,
    List.sum_cons, List.sum_nil, List.flatten_nil, Frame.fds, ClaimFrame.fds, handed, fdsOf_none]
  abel

theorem claimAct_accounts {frame : ClaimFrame} (covered : w.fds + frame.fds ≤ w.nodeFds)
    (acted : claimAct w χ frame = some outcome) : Accounts w frame.fds outcome := by
  revert acted
  fun_cases claimAct w χ frame <;> intro acted
  all_goals first
    | cases acted; done
    | exact claim_accounts acted rfl rfl
    | exact accounts_close covered (by simp; try abel) acted
    | exact accounts_same (by simp) (by simp [World.fds]) acted

theorem streamAct_accounts {frame : StreamFrame} (covered : w.fds + frame.fds ≤ w.nodeFds)
    (acted : streamAct w χ frame = some outcome) : Accounts w frame.fds outcome := by
  revert acted
  fun_cases streamAct w χ frame <;> intro acted
  all_goals first
    | cases acted; done
    | exact accounts_close covered (by simp) acted
    | exact accounts_open ‹_› (by simp) acted
    | exact accounts_same (by simp) (by simp [World.fds, World.newStream]) acted

theorem pushAct_accounts {frame : PushFrame} (covered : w.fds + frame.fds ≤ w.nodeFds)
    (acted : pushAct w χ frame = some outcome) : Accounts w frame.fds outcome := by
  revert acted
  fun_cases pushAct w χ frame <;> intro acted
  case case4 =>
      obtain ⟨-, -, idle⟩ := record_empty_of_covered covered
      exact accounts_same rfl (by simp [World.fds, idle]; try abel) acted
  all_goals exact accounts_same rfl (by simp [World.fds]) acted

theorem pullAct_accounts {frame : PullFrame} (covered : w.fds + frame.fds ≤ w.nodeFds)
    (acted : pullAct w χ frame = some outcome) : Accounts w frame.fds outcome := by
  revert acted
  fun_cases pullAct w χ frame <;> intro acted
  case case9 =>
      obtain ⟨-, -, idle⟩ := record_empty_of_covered covered
      exact accounts_same rfl (by simp [World.fds, idle]) acted
  all_goals exact accounts_same rfl (by simp [World.fds]) acted

/-- `tuner_try_claim_fast` has only one descriptor to report. -/
theorem fds_staleHeldFd (covered : w.fds ≤ w.nodeFds) :
    fdsOf w.tuner.staleHeldFd = fdsOf w.tuner.heldFd + fdsOf w.tuner.parkedFd := by
  unfold World.fds at covered
  cases held : w.tuner.heldFd with
  | none => simp [Tuner.staleHeldFd, held]
  | some first =>
      cases parked : w.tuner.parkedFd with
      | none => simp [Tuner.staleHeldFd, held]
      | some second =>
          rw [held, parked, add_comm] at covered
          exact absurd covered not_covered_two

theorem setAct_accounts {frame : SetFrame} (covered : w.fds + frame.fds ≤ w.nodeFds)
    (acted : setAct w χ frame = some outcome) : Accounts w frame.fds outcome := by
  have stale := fds_staleHeldFd (le_self_add.trans covered)
  revert acted
  fun_cases setAct w χ frame <;> intro acted
  all_goals first
    | cases acted; done
    | exact accounts_same rfl
        (by simp_all [World.fds, Tuner.channelScanCtx]; try abel) acted

theorem scanAct_accounts {frame : ScanFrame} (covered : w.fds + frame.fds ≤ w.nodeFds)
    (acted : scanAct w χ frame = some outcome) : Accounts w frame.fds outcome := by
  revert acted
  fun_cases scanAct w χ frame <;> intro acted
  all_goals first
    | cases acted; done
    | exact accounts_close covered (by simp) acted
    | exact accounts_open ‹_› (by simp) acted
    | exact accounts_same (by simp) (by simp_all [World.fds]) acted

theorem statsAct_accounts {frame : StatsFrame}
    (acted : statsAct w χ frame = some outcome) : Accounts w 0 outcome := by
  revert acted
  fun_cases statsAct w χ frame <;> intro acted <;>
    exact accounts_same rfl (by simp [World.fds]) acted

theorem act_accounts {frame : Frame} (covered : w.fds + frame.fds ≤ w.nodeFds)
    (idle : ∀ stream, frame = .release (.tunerReleaseParkRestore stream) →
      w.tuner.activeStream = none)
    (acted : act w frame χ = some outcome) : Accounts w frame.fds outcome := by
  cases frame with
  | hold frame => exact holdAct_accounts covered acted
  | release frame =>
      refine releaseAct_accounts covered ?_ acted
      rintro stream rfl
      exact idle stream rfl
  | claim frame => exact claimAct_accounts covered acted
  | stream frame => exact streamAct_accounts covered acted
  | push frame => exact pushAct_accounts covered acted
  | pull frame => exact pullAct_accounts covered acted
  | set frame => exact setAct_accounts covered acted
  | scan frame => exact scanAct_accounts covered acted
  | stats frame => exact statsAct_accounts acted

end Groups

theorem arrives_fds : ∀ frame, arrives frame = true → frame.fds = 0 := by
  simp [forall_arrives]

section Reachable

variable {guard : Guard World Frame Choice} {db : ChannelDb} {config : Config World Frame}

/-- Whoever has the claim without streaming finds no active stream. -/
theorem idle_of_claims {w : World} {frame : Frame} {others : Multiset Frame}
    (claim : w.tuner.busy.toNat = tally Frame.claims (frame ::ₘ others))
    (stream : w.tuner.activeStream.isSome.toNat ≤ tally Frame.streams (frame ::ₘ others))
    (claims : frame.claims = 1) (streams : frame.streams = 0) :
    w.tuner.activeStream = none := by
  have le := tally_mono streams_le_claims others
  have one := Bool.toNat_le w.tuner.busy
  rw [tally_cons] at claim stream
  have inactive : w.tuner.activeStream.isSome.toNat = 0 := by omega
  simpa using inactive

/-- The descriptors that are owned are those the kernel has open. -/
theorem nodeFds_eq (reachable : machine.Reachable guard (start db) config) :
    config.shared.nodeFds = config.shared.fds + tally Frame.fds config.frames := by
  refine reachable.balanced
    (fun w frames => w.tuner.busy.toNat = tally Frame.claims frames ∧
      w.tuner.activeStream.isSome.toNat ≤ tally Frame.streams frames)
    World.nodeFds World.fds Frame.fds ?_ rfl arrives_fds ?_
  · intro config reached
    exact ⟨busy_eq_tally_claims reached, active_le_tally_streams reached⟩
  · intro w frame others χ outcome known covered acted
    refine act_accounts covered ?_ acted
    rintro stream rfl
    exact idle_of_claims known.1 known.2 rfl rfl

end Reachable

end HdhrEmu
