import HdhrEmu.Tuner

/-!
# Claims, holds, parks and pushes

The critical sections of `tuner.c`, `udp_stream.c` and the scan worker that
decide who may use the frontend.  Each one is what runs between a lock and the
next unlock; the blocking calls in between are not here.
-/

namespace HdhrEmu

/-- The descriptors a claim takes away from the tuner, and the tuning of the
hold among them. -/
structure Detached where
  held : Option Fd
  parked : Option Fd
  tuned : Tuning
  deriving DecidableEq, Repr

/-- `resolve_claimed_hold` hands the held descriptor over. -/
def Detached.reusesHeld (detached : Detached) (want : Option Tuning) : Bool :=
  want == some detached.tuned

/-- The descriptor a claimer gets to reuse.  `want` is what it is going to
tune to, `none` for a caller that passed no `out_reused_fd`. -/
def Detached.reused (detached : Detached) (want : Option Tuning) : Option Fd :=
  match detached.held with
  | some held =>
      if detached.reusesHeld want then some held
      else if want.isSome then detached.parked else none
  | none => if want.isSome then detached.parked else none

/-- The descriptors that are closed before the claim returns. -/
def Detached.closing (detached : Detached) (want : Option Tuning) : List Fd :=
  match detached.held with
  | some held =>
      if detached.reusesHeld want then detached.parked.toList
      else if want.isSome then [held] else held :: detached.parked.toList
  | none => if want.isSome then [] else detached.parked.toList

namespace Tuner

def tuning (t : Tuner) : Tuning :=
  ⟨t.tunedFrequencyHz, t.tunedDelivery⟩

def detached (t : Tuner) : Detached :=
  ⟨t.heldFd, t.parkedFd, t.tuning⟩

/-- The counter of `tuner_try_claim_wait`. -/
@[simp]
def claimWait (t : Tuner) : Tuner :=
  { t with claimWaiters := t.claimWaiters + 1 }

@[simp]
def claimWaited (t : Tuner) : Tuner :=
  { t with claimWaiters := t.claimWaiters - 1 }

/-- What every successful claim writes. -/
@[simp]
def claimed (t : Tuner) : Tuner :=
  { t with busy := true, heldFd := none, parkedFd := none }

/-- `tuner_try_claim_fast` reports one descriptor to be closed later. -/
def staleHeldFd (t : Tuner) : Option Fd :=
  t.heldFd.or t.parkedFd

@[simp]
def setHttpPeerAddr (t : Tuner) (peer : UInt32) : Tuner :=
  { t with httpPeerAddr := peer }

/-- `tuner_set_stream`. -/
@[simp]
def tunerSetStream (t : Tuner) (stream : Option DvbStream) : Tuner :=
  { t with activeStream := stream }

/-- The second critical section of `tuner_release`. -/
@[simp]
def releaseClear (t : Tuner) : Tuner :=
  { t with busy := false, httpPeerAddr := 0 }

/-- The second critical section of `tuner_release_park`; no descriptor is
installed when `malloc` failed. -/
def parkInstall (t : Tuner) (fd : Option Fd) : Tuner :=
  match fd with
  | some fd =>
      { t.releaseClear with
        parkedFd := some fd
        parkGeneration := t.parkGeneration + 1 }
  | none => t.releaseClear

/-- What `park_expiry_thread_main` finds, and the same section when the timer
could not be started: only the park of this generation is taken. -/
def parkExpired (t : Tuner) (generation : UInt32) : Option Fd :=
  if t.parkGeneration = generation then t.parkedFd else none

def parkExpire (t : Tuner) (generation : UInt32) : Tuner :=
  if t.parkGeneration = generation then { t with parkedFd := none } else t

/-- `close_existing_hold_for_new_one`, while nothing is streaming. -/
@[simp]
def detachHold (t : Tuner) : Tuner :=
  { t with heldFd := none, parkedFd := none }

/-- `install_hold_fd`, when neither a stream nor a hold got there first. -/
@[simp]
def installHold (t : Tuner) (fd : Fd) (thread : Nat) (started : Bool) : Tuner :=
  { t with
    heldFd := some fd
    heldStatsCacheValid := false
    heldStatsStopRequested := false
    heldStatsThread := if started then thread else t.heldStatsThread
    heldStatsThreadStarted := started }

@[simp]
def closeHold (t : Tuner) : Tuner :=
  { t with heldFd := none }

@[simp]
def stopHeldStats (t : Tuner) : Tuner :=
  { t with heldStatsStopRequested := true }

@[simp]
def heldStatsJoined (t : Tuner) : Tuner :=
  { t with heldStatsThreadStarted := false }

@[simp]
def publishHeldStats (t : Tuner) (reading : Reading) : Tuner :=
  { t with heldStatsCache := reading, heldStatsCacheValid := true }

/-- `finalize_lock_result`.  Bookkeeping: `tunedTo` is the tuning that locked. -/
def finalizeLockResult (t : Tuner) (freq : UInt32) (locked : Bool)
    (delivery : DeliverySystem) (generation : UInt32) (tunedTo : Option Tuning) : Tuner :=
  if t.scanGeneration = generation then
    { t with
      status := statusText (channelText delivery freq)
        (if locked then delivery.word else noneText) []
      statusTunedTo := tunedTo }
  else t

@[simp]
def publishScanStats (t : Tuner) (freq : UInt32) (reading : Reading) : Tuner :=
  { t with scanStats := reading, scanStatsValid := true, scanStatsFreq := freq }

@[simp]
def recordAttempt (t : Tuner) (freq : UInt32) (locked : Bool) (generation : UInt32) : Tuner :=
  { t with
    lastAttemptFreq := freq
    lastAttemptLocked := locked
    lastAttemptGeneration := generation }

@[simp]
def scanWorkerDone (t : Tuner) : Tuner :=
  { t with scanWorkerActive := false }

/-- The critical section of `udp_push_stop`. -/
def udpPushStop (t : Tuner) : Tuner :=
  if t.udpPushActive then
    { t with udpPushStopRequested := true, stoppedUpTo := t.pushCount }
  else t

/-- The last critical section of `udp_push_start`, up to `pthread_create`. -/
def udpPushCreate (t : Tuner) (target : UdpTarget) (now : Nat) (started : Bool) : Tuner :=
  { t with
    keepaliveMatchAddr := (inetPton target.ip).getD 0
    keepaliveMatchPort := UInt16.ofInt target.port
    lastKeepaliveTime := now
    udpPushStopRequested := false
    udpPushActive := started
    udpPushGeneration := t.udpPushGeneration + 1
    pushCount := if started then t.pushCount + 1 else t.pushCount
    destination := if started then some target else t.destination
    supersededUpTo := if started then t.stoppedUpTo else t.supersededUpTo }

@[simp]
def setTarget (t : Tuner) (value : CStr) : Tuner :=
  { t with target := truncate 64 value }

/-- The last critical section of `push_thread_main`. -/
def udpPushDone (t : Tuner) (generation : UInt32) : Tuner :=
  if t.udpPushGeneration = generation then { t with udpPushActive := false } else t

section Frame

-- A section with a branch in it is not unfolded by the simplifier; these
-- lemmas say which groups of fields it keeps.

variable (t : Tuner)

@[simp]
theorem pullReset_keeps (ch : DvbChannel) :
    (t.pullReset ch).toHold = t.toHold ∧ (t.pullReset ch).toClaim = t.toClaim ∧
      (t.pullReset ch).toScanSession = t.toScanSession ∧
      (t.pullReset ch).toPush = t.toPush := by
  unfold pullReset
  split <;> simp

@[simp]
theorem parkInstall_keeps (fd : Option Fd) :
    (t.parkInstall fd).toSelection = t.toSelection ∧
      (t.parkInstall fd).toStatusLine = t.toStatusLine ∧
      (t.parkInstall fd).toHold = t.toHold ∧
      (t.parkInstall fd).toScanSession = t.toScanSession ∧
      (t.parkInstall fd).toPush = t.toPush := by
  cases fd <;> simp [parkInstall]

@[simp]
theorem parkInstall_claim (fd : Option Fd) :
    (t.parkInstall fd).busy = false ∧ (t.parkInstall fd).activeStream = t.activeStream ∧
      (t.parkInstall fd).parkedFd = fd.or t.parkedFd := by
  cases fd <;> simp [parkInstall]

@[simp]
theorem parkExpire_keeps (generation : UInt32) :
    (t.parkExpire generation).toSelection = t.toSelection ∧
      (t.parkExpire generation).toStatusLine = t.toStatusLine ∧
      (t.parkExpire generation).toHold = t.toHold ∧
      (t.parkExpire generation).toScanSession = t.toScanSession ∧
      (t.parkExpire generation).toPush = t.toPush ∧
      (t.parkExpire generation).busy = t.busy ∧
      (t.parkExpire generation).activeStream = t.activeStream := by
  unfold parkExpire
  split <;> simp

@[simp]
theorem finalizeLockResult_keeps (freq : UInt32) (locked : Bool) (delivery : DeliverySystem)
    (generation : UInt32) (tunedTo : Option Tuning) :
    let after := t.finalizeLockResult freq locked delivery generation tunedTo
    after.toSelection = t.toSelection ∧ after.toHold = t.toHold ∧ after.toClaim = t.toClaim ∧
      after.toScanSession = t.toScanSession ∧ after.toPush = t.toPush := by
  dsimp only
  unfold finalizeLockResult
  split <;> simp

@[simp]
theorem udpPushStop_keeps :
    t.udpPushStop.toSelection = t.toSelection ∧ t.udpPushStop.toStatusLine = t.toStatusLine ∧
      t.udpPushStop.toHold = t.toHold ∧ t.udpPushStop.toClaim = t.toClaim ∧
      t.udpPushStop.toScanSession = t.toScanSession := by
  unfold udpPushStop
  split <;> simp

@[simp]
theorem udpPushCreate_keeps (target : UdpTarget) (now : Nat) (started : Bool) :
    let after := t.udpPushCreate target now started
    after.toSelection = t.toSelection ∧ after.toStatusLine = t.toStatusLine ∧
      after.toHold = t.toHold ∧ after.toClaim = t.toClaim ∧
      after.toScanSession = t.toScanSession := by
  simp [udpPushCreate]

@[simp]
theorem udpPushDone_keeps (generation : UInt32) :
    let after := t.udpPushDone generation
    after.toSelection = t.toSelection ∧ after.toStatusLine = t.toStatusLine ∧
      after.toHold = t.toHold ∧ after.toClaim = t.toClaim ∧
      after.toScanSession = t.toScanSession := by
  dsimp only
  unfold udpPushDone
  split <;> simp

end Frame

end Tuner

end HdhrEmu
