import HdhrEmu.Channel
import HdhrEmu.ChannelValue
import HdhrEmu.Lib.RingQueue
import HdhrEmu.UdpTarget

/-!
# The tuner record and its critical sections

`struct hdhr_tuner`, grouped by what the fields are about, and the pieces of
code that run under its lock.  A field marked as bookkeeping does not exist in
the source: nothing the program does depends on it, and it records facts that
properties of whole runs speak about.
-/

namespace HdhrEmu

open CString

abbrev Fd := Nat

/-- What a frontend was last told to receive. -/
structure Tuning where
  freq : UInt32
  delivery : DeliverySystem
  deriving DecidableEq, Repr

structure DvbSignalStats where
  hasLock : Bool
  signalStrengthPct : Int
  snrQualityPct : Int
  symbolQualityPct : Int
  deriving DecidableEq, Repr

/-- One reading of the signal.  Bookkeeping: `tunedTo` is the tuning of the
frontend at the time of the reading. -/
structure Reading where
  stats : DvbSignalStats
  tunedTo : Option Tuning
  deriving DecidableEq, Repr

def Reading.zero : Reading :=
  ⟨⟨false, 0, 0, 0⟩, none⟩

/-- The part of `struct dvb_stream` that is fixed once it is open. -/
structure DvbStream where
  id : Nat
  frontendFd : Fd
  statsThreadStarted : Bool
  tuning : Tuning
  deriving DecidableEq, Repr

/-- Bookkeeping: the circumstances under which a `channel` SET was accepted. -/
structure Accepted where
  delivery : DeliverySystem
  generation : UInt32
  epoch : Nat
  deriving DecidableEq, Repr

/-- An entry of `pending_queue`, with bookkeeping about its acceptance. -/
structure Pending where
  freq : UInt32
  rfChannel : Int
  accepted : Accepted
  deriving DecidableEq, Repr

instance : Inhabited Pending :=
  ⟨⟨0, 0, ⟨.atscVsb, 0, 0⟩⟩⟩

def tunerPendingQueueCap : Nat := 40

abbrev PendingQueue := RingQueue Pending tunerPendingQueueCap

/-- What the clients have selected. -/
structure Selection where
  channel : CStr
  program : Int
  channelmap : CStr
  filterOverride : CStr
  vchMajor : Int
  vchMinor : Int
  vchResolved : Bool
  tunedFrequencyHz : UInt32
  tunedDelivery : DeliverySystem
  deriving DecidableEq

/-- What `/tunerN/status` falls back to while nothing is streaming or held.
Bookkeeping: `statusTunedTo` is the tuning the lock word of `status` is about. -/
structure StatusLine where
  status : CStr
  statusTunedTo : Option Tuning
  scanStats : Reading
  scanStatsValid : Bool
  scanStatsFreq : UInt32
  deriving DecidableEq

structure Hold where
  heldFd : Option Fd
  heldStatsThread : Nat
  heldStatsThreadStarted : Bool
  heldStatsStopRequested : Bool
  heldStatsCache : Reading
  heldStatsCacheValid : Bool
  deriving DecidableEq

structure Claim where
  busy : Bool
  activeStream : Option DvbStream
  httpPeerAddr : UInt32
  parkedFd : Option Fd
  parkGeneration : UInt32
  claimWaiters : Nat
  deriving DecidableEq

/-- The state a `channel` SET shares with the scan worker.  Bookkeeping:
`epoch` counts the changes of `scanGeneration`, which wraps around. -/
structure ScanSession where
  scanWorkerActive : Bool
  scanGeneration : UInt32
  epoch : Nat
  lastAttemptFreq : UInt32
  lastAttemptLocked : Bool
  lastAttemptGeneration : UInt32
  pendingQueue : PendingQueue
  deriving DecidableEq

/-- The state of `target=` pushes.  Bookkeeping: pushes are numbered from one
in the order they are started, and `destination` is where the newest one sends
to; `stoppedUpTo` is the number of the newest push at the last stop that found
one active, and `supersededUpTo` the value that `stoppedUpTo` had when the
newest push was started. -/
structure Push where
  target : CStr
  udpPushActive : Bool
  udpPushStopRequested : Bool
  udpPushGeneration : UInt32
  keepaliveMatchAddr : UInt32
  keepaliveMatchPort : UInt16
  lastKeepaliveTime : Nat
  pushCount : Nat
  destination : Option UdpTarget
  stoppedUpTo : Nat
  supersededUpTo : Nat
  deriving DecidableEq

/-- `struct hdhr_tuner`. -/
structure Tuner extends
    Selection, StatusLine, Hold, Claim, ScanSession, Push
  deriving DecidableEq

def noneText : CStr := "none".toList

/-- `snprintf(buffer, size, "%s", text)`. -/
def truncate (size : Nat) (text : CStr) : CStr :=
  text.take (size - 1)

/-- `"ch=%s lock=%s"` and what follows. -/
def statusText (ch lock tail : CStr) : CStr :=
  "ch=".toList ++ ch ++ " lock=".toList ++ lock ++ tail

def idleStatus : CStr :=
  statusText noneText noneText " ss=0 snq=0 seq=0 bps=0 pps=0".toList

/-- `DVB_PROGRAM_DEFAULT`. -/
def dvbProgramDefault : Int := -1

namespace Tuner

/-- `tuner_pool_init`. -/
def init : Tuner where
  channel := noneText
  program := dvbProgramDefault
  channelmap := usBcast
  filterOverride := []
  vchMajor := 0
  vchMinor := 0
  vchResolved := false
  tunedFrequencyHz := 0
  tunedDelivery := .atscVsb
  status := idleStatus
  statusTunedTo := none
  scanStats := Reading.zero
  scanStatsValid := false
  scanStatsFreq := 0
  heldFd := none
  heldStatsThread := 0
  heldStatsThreadStarted := false
  heldStatsStopRequested := false
  heldStatsCache := Reading.zero
  heldStatsCacheValid := false
  busy := false
  activeStream := none
  httpPeerAddr := 0
  parkedFd := none
  parkGeneration := 0
  claimWaiters := 0
  scanWorkerActive := false
  scanGeneration := 0
  epoch := 0
  lastAttemptFreq := 0
  lastAttemptLocked := false
  lastAttemptGeneration := 0
  pendingQueue := .empty Pending tunerPendingQueueCap (by decide)
  target := noneText
  udpPushActive := false
  udpPushStopRequested := false
  udpPushGeneration := 0
  keepaliveMatchAddr := 0
  keepaliveMatchPort := 0
  lastKeepaliveTime := 0
  pushCount := 0
  destination := none
  stoppedUpTo := 0
  supersededUpTo := 0

/-- The end of a selection session: `channel=none`, and the reset inside a
`channelmap` SET. -/
@[simp]
def channelNoneReset (t : Tuner) : Tuner :=
  { t with
    channel := noneText
    tunedFrequencyHz := 0
    vchResolved := false
    filterOverride := []
    scanGeneration := t.scanGeneration + 1
    epoch := t.epoch + 1
    status := idleStatus
    statusTunedTo := none }

@[simp]
def channelmapReset (t : Tuner) (value : CStr) : Tuner :=
  { t.channelNoneReset with channelmap := truncate 16 value }

/-- What a fresh and a queued `channel` SET write alike: the frequency and
the channel text, but not `tuned_delivery`. -/
@[simp]
def selectRaw (t : Tuner) (delivery : DeliverySystem) (freq : UInt32) (tail : CStr) : Tuner :=
  { t with
    tunedFrequencyHz := freq
    vchResolved := false
    filterOverride := []
    channel := channelText delivery freq
    status := statusText (channelText delivery freq) noneText tail
    statusTunedTo := none }

/-- A `channel` SET that claimed a free tuner; it starts a new session. -/
@[simp]
def channelSelect (t : Tuner) (delivery : DeliverySystem) (freq : UInt32) : Tuner :=
  { t.selectRaw delivery freq " ss=45 snq=0 seq=0".toList with
    scanWorkerActive := true
    scanGeneration := t.scanGeneration + 1
    epoch := t.epoch + 1 }

/-- A full queue is emptied before a request is added. -/
def pendingWithRoom (t : Tuner) : PendingQueue :=
  if tunerPendingQueueCap ≤ t.pendingQueue.count then t.pendingQueue.clear else t.pendingQueue

def pendingEntry (t : Tuner) (value : ChannelValue) : Pending :=
  ⟨value.freq, value.rfChannel, ⟨deliveryForMap t.channelmap, t.scanGeneration, t.epoch⟩⟩

/-- A `channel` SET queued behind a running worker. -/
@[simp]
def channelQueue (t : Tuner) (delivery : DeliverySystem) (value : ChannelValue) : Tuner :=
  { t.selectRaw delivery value.freq " ss=45 snq=0 seq=0 bps=0 pps=0".toList with
    pendingQueue := t.pendingWithRoom.push (t.pendingEntry value) }

/-- The program that a bind reports: without an override, the channel's own. -/
def boundProgram (ch : DvbChannel) (programOverride : Int) : Int :=
  if programOverride = dvbProgramDefault then ch.programNumber.toNat else programOverride

/-- `tuner_bind_channel`. -/
@[simp]
def tunerBindChannel (t : Tuner) (ch : DvbChannel) (programOverride : Int) : Tuner :=
  { t with
    vchMajor := ch.major
    vchMinor := ch.minor
    vchResolved := true
    tunedFrequencyHz := ch.frequencyHz
    tunedDelivery := ch.delivery
    channel := channelText ch.delivery ch.frequencyHz
    program := boundProgram ch programOverride }

/-- The second critical section of a `vchannel` SET. -/
@[simp]
def vchannelStatus (t : Tuner) : Tuner :=
  { t with
    status := statusText t.channel noneText []
    statusTunedTo := none
    filterOverride := [] }

/-- The reset inside `release_http_pull`. -/
def pullReset (t : Tuner) (ch : DvbChannel) : Tuner :=
  if t.vchResolved ∧ t.vchMajor = ch.major ∧ t.vchMinor = ch.minor ∧
      t.tunedFrequencyHz = ch.frequencyHz then
    { t with
      channel := noneText
      tunedFrequencyHz := 0
      vchResolved := false
      program := dvbProgramDefault
      filterOverride := []
      status := idleStatus
      statusTunedTo := none }
  else t

theorem entries_channelQueue (t : Tuner) (delivery : DeliverySystem) (value : ChannelValue) :
    (t.channelQueue delivery value).pendingQueue.entries =
      t.pendingWithRoom.entries ++ [t.pendingEntry value] := by
  refine RingQueue.entries_push ?_ _
  unfold pendingWithRoom
  split
  · rw [RingQueue.count_clear]
    decide
  · rename_i room
    exact Nat.lt_of_not_le room

end Tuner

end HdhrEmu
