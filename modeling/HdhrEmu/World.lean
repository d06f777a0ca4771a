import HdhrEmu.ChannelSet
import HdhrEmu.Lib.Interleaving
import HdhrEmu.PushStart

/-!
# One tuner and everything that runs on it

The shared state is the tuner record, the frontend node in the kernel, the
channel database, the heap of streams and the threads that only read signal
stats.  A frame is a call that has not returned, positioned in front of its
next critical section or blocking call; it keeps the local variables that the
rest of the call reads.
-/

namespace HdhrEmu

/-- The frontend node: it accepts one opener at a time. -/
structure Node where
  opener : Option Fd
  tuning : Option Tuning
  deriving DecidableEq, Repr

/-- The part of `struct dvb_stream` that changes while the stream is open.
`stopped` is `closing` and `stats_stop_requested`, which are set together. -/
structure StreamCell where
  statsCache : Reading
  statsCacheValid : Bool
  stopped : Bool
  statsRunning : Bool
  deriving DecidableEq, Repr

/-- `heldThreads` are the held-stats threads that have not returned yet. -/
structure World where
  tuner : Tuner
  node : Node
  db : ChannelDb
  streams : List StreamCell
  heldThreads : List Nat
  nextHeldThread : Nat
  deriving DecidableEq

/-- A tuner after `tuner_pool_init`, with a database loaded from the cache. -/
def World.init (db : ChannelDb) : World where
  tuner := Tuner.init
  node := ⟨none, none⟩
  db := db
  streams := []
  heldThreads := []
  nextHeldThread := 0

/-- What a step does not decide itself: whether a system call succeeds, which
descriptor it returns, whether a wait has timed out, whether a loop goes on,
whether a stats thread starts, what is read from the hardware, what a scan
finds and what the clock says. -/
structure Choice where
  ok : Bool := true
  fd : Fd := 0
  timedOut : Bool := false
  more : Bool := false
  started : Bool := true
  stats : DvbSignalStats := ⟨false, 0, 0, 0⟩
  found : List DvbChannel := []
  now : Nat := 0

inductive HoldFrame
  | stopHeldStats
  | joinHeldStats (thread : Nat)
  | frontendClose (fd : Fd)
  | tunerCloseHold
  | tunerOpenHold (tuning : Tuning)
  | holdReopen (olds : List Fd) (tuning : Tuning)
  | holdTune (fd : Fd) (tuning : Tuning)
  | installHoldFd (olds : List Fd) (fd : Fd)
  | tunerOpenHoldFromFd (fd : Fd)

inductive ReleaseFrame
  | tunerRelease
  | streamTeardown (stream : DvbStream) (keepFrontend : Bool)
  | streamJoin (stream : DvbStream) (keepFrontend : Bool)
  | tunerReleaseClear
  | tunerReleasePark
  | tunerReleaseParkRestore (stream : Option DvbStream)
  | parkInstall (fd : Fd)
  | parkSpawn (generation : UInt32)
  | parkExpiry (generation : UInt32)

/-- Who opens a stream. -/
inductive Streamer
  | push (ctx : PushCtx)
  | pull (key : ChannelKey) (peer : UInt32)

/-- Who claims the tuner through the waiting or the trying claim, and what it
is going to tune to; the startup scan passes no `out_reused_fd`. -/
inductive Claimant
  | streamer (who : Streamer) (want : Tuning)
  | startupScan

/-- A claimer with the claim, and the descriptor it may reuse. -/
inductive Granted
  | streamer (who : Streamer) (reused : Option Fd)
  | startupScan

inductive ClaimFrame
  | tunerTryClaim (key : ChannelKey) (peer : UInt32) (want : Tuning)
  | tunerTryClaimWait (who : Claimant)
  | tunerTryClaimWaiting (who : Claimant)
  | claimClosing (olds : List Fd) (granted : Granted)

/-- The calls of `dvb_stream_open`; the delivery system is read once at its start. -/
inductive StreamFrame
  | dvbStreamOpen (who : Streamer) (adopt : Option Fd)
  | streamTune (who : Streamer) (delivery : DeliverySystem) (fd : Fd) (adopted : Bool)
  | streamWaitLock (who : Streamer) (delivery : DeliverySystem) (fd : Fd) (retried : Bool)
  | streamReopenClose (who : Streamer) (delivery : DeliverySystem) (fd : Fd)
  | streamReopen (who : Streamer) (delivery : DeliverySystem)
  | streamRetune (who : Streamer) (delivery : DeliverySystem) (fd : Fd)
  | streamStart (who : Streamer) (fd : Fd)

inductive PushFrame
  | pushStart (ctx : PushCtx)
  | pushBind (ctx : PushCtx) (stream : DvbStream)
  | pushSetStream (ctx : PushCtx) (stream : DvbStream)
  | pushLoop (ctx : PushCtx)
  | pushRead (ctx : PushCtx)
  | pushSend (ctx : PushCtx)
  | pushEnd (ctx : PushCtx)
  | pushDone (ctx : PushCtx)

inductive PullFrame
  | streamChannelToClient (key : ChannelKey) (peer : UInt32) (anyTuner : Bool)
  | claimForPeer (key : ChannelKey) (peer : UInt32)
  | pullSetPeer (key : ChannelKey) (peer : UInt32) (reused : Option Fd)
  | pullBind (key : ChannelKey) (stream : DvbStream)
  | pullSetStream (key : ChannelKey) (stream : DvbStream)
  | pullStream (key : ChannelKey)
  | releaseHttpPull (key : ChannelKey)

/-- A `target` SET after its value was parsed. -/
structure TargetRequest where
  value : CStr
  target : UdpTarget
  deriving DecidableEq, Repr

/-- The channel of a push before it is copied: a pointer into the database, or
a channel made up for a frequency. -/
inductive ChannelRef
  | db (key : ChannelKey)
  | synth (tuning : Tuning)
  deriving DecidableEq, Repr

def ChannelRef.deref (db : ChannelDb) : ChannelRef → DvbChannel
  | .db key => db.deref key
  | .synth tuning => synthChannel tuning

inductive SetFrame
  | udpPushStop
  | udpPushStopWait
  | targetSet (value : CStr)
  | targetNone
  | pushStartRead (request : TargetRequest)
  | pushStartFind (request : TargetRequest) (key : ChannelKey) (program : Int)
  | pushStartLocked (request : TargetRequest) (tuning : Tuning)
  | pushStartSiblings (request : TargetRequest) (freq : UInt32) (program : Int)
  | pushStartVerify (request : TargetRequest) (key : ChannelKey) (freq : UInt32) (program : Int)
  | pushStartCreate (request : TargetRequest) (channel : ChannelRef) (program : Int)
  | targetWrite (request : TargetRequest) (id : Nat)
  | channelSet (value : CStr)
  | channelNone
  | channelClaim (request : ChannelRequest)
  | channelQueue (request : ChannelRequest)
  | channelSelect (request : ChannelRequest) (staleHeldFd : Option Fd)
  | channelSpawn (ctx : ChannelScanCtx)
  | channelUnmark
  | channelWait (generation freq : UInt32)
  | channelmapSet (value : CStr)
  | channelmapReset (value : CStr)
  | vchannelSet (key : ChannelKey)
  | vchannelBind (key : ChannelKey)
  | vchannelStatus (key : ChannelKey)
  | vchannelHold (key : ChannelKey)
  | programSet (program : Int)
  | filterSet (value : CStr)
  | keepalivePacket (addr : UInt32) (port : UInt16)
  | sweepStalePushes
  | dbAdd (channels : List DvbChannel)

/-- The local variables of `channel_scan_thread_main`.  Bookkeeping: `accepted`
is the acceptance of a request that was taken from the queue. -/
structure ScanJob where
  ctx : ChannelScanCtx
  ffd : Option Fd
  freq : UInt32
  rfChannel : Int
  accepted : Option Accepted
  deriving DecidableEq, Repr

/-- The result of `dvb_scan_tune_and_lock`.  Bookkeeping: `tunedTo` is the
tuning that locked. -/
structure LockResult where
  locked : Bool
  tunedTo : Option Tuning
  deriving DecidableEq, Repr

inductive ScanFrame
  | scanThread (ctx : ChannelScanCtx)
  | scanCloseStale (ctx : ChannelScanCtx) (fd : Fd)
  | scanOpen (ctx : ChannelScanCtx)
  | scanTune (job : ScanJob)
  | scanWaitLock (job : ScanJob) (fd : Fd)
  | publishScanStatsRead (job : ScanJob) (fd : Fd)
  | publishScanStats (job : ScanJob) (reading : Reading)
  | scanRecord (job : ScanJob) (lock : LockResult)
  | scanFinalize (job : ScanJob) (lock : LockResult)
  | scanReadPsip (job : ScanJob)
  | scanDequeue (job : ScanJob)
  | scanExit (job : ScanJob)
  | scanWorkerDone
  | startupOpen
  | startupTune (fd : Fd) (index : Nat)
  | startupWaitLock (fd : Fd) (index : Nat)

inductive StatsFrame
  | heldStatsThread (thread : Nat)
  | heldStatsRead (thread : Nat) (fd : Fd)
  | heldStatsPublish (thread : Nat) (fd : Fd) (reading : Reading)
  | heldStatsSleep (thread : Nat) (fd : Fd)
  | streamStatsRead (stream : DvbStream)
  | streamStatsPublish (stream : DvbStream) (reading : Reading)
  | streamStatsSleep (stream : DvbStream)

inductive Frame
  | hold (frame : HoldFrame)
  | release (frame : ReleaseFrame)
  | claim (frame : ClaimFrame)
  | stream (frame : StreamFrame)
  | push (frame : PushFrame)
  | pull (frame : PullFrame)
  | set (frame : SetFrame)
  | scan (frame : ScanFrame)
  | stats (frame : StatsFrame)

instance : Coe HoldFrame Frame := ⟨.hold⟩
instance : Coe ReleaseFrame Frame := ⟨.release⟩
instance : Coe ClaimFrame Frame := ⟨.claim⟩
instance : Coe StreamFrame Frame := ⟨.stream⟩
instance : Coe PushFrame Frame := ⟨.push⟩
instance : Coe PullFrame Frame := ⟨.pull⟩
instance : Coe SetFrame Frame := ⟨.set⟩
instance : Coe ScanFrame Frame := ⟨.scan⟩
instance : Coe StatsFrame Frame := ⟨.stats⟩

deriving instance DecidableEq for HoldFrame, ReleaseFrame, Streamer
deriving instance DecidableEq for Claimant, Granted
deriving instance DecidableEq for ClaimFrame, StreamFrame, PushFrame, PullFrame, SetFrame,
  ScanFrame, StatsFrame
deriving instance DecidableEq for Frame

abbrev Outcome := Interleaving.Outcome World Frame

end HdhrEmu
