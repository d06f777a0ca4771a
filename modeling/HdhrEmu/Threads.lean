import HdhrEmu.World

/-!
# What every thread does

The actions of the frames.  An action is a critical section under the tuner
lock, or one call that blocks or touches the frontend; what the rest of the
call has to do is left as frames.  A wait that has not ended has no step.
-/

namespace HdhrEmu

namespace Node

/-- `dvb_frontend_open`. -/
def open? (node : Node) (fd : Fd) (ok : Bool) : Option Node :=
  if node.opener = none ∧ ok = true then some ⟨some fd, none⟩ else none

/-- `dvb_frontend_close`. -/
def close (node : Node) (fd : Fd) : Node :=
  if node.opener = some fd then ⟨none, none⟩ else node

/-- `dvb_frontend_tune_8vsb` and `dvb_frontend_tune_qam`, when they succeed. -/
def tune (node : Node) (fd : Fd) (tuning : Tuning) : Node :=
  if node.opener = some fd then ⟨some fd, some tuning⟩ else node

/-- `dvb_frontend_read_stats`: there is no lock on a descriptor that is not
open, nor before the first tune. -/
def read (node : Node) (fd : Fd) (stats : DvbSignalStats) : Reading :=
  if node.opener = some fd ∧ node.tuning.isSome then ⟨stats, node.tuning⟩
  else ⟨{ stats with hasLock := false }, none⟩

end Node

/-- The next frames, with the tuner record changed. -/
@[simp]
def World.next (w : World) (tuner : Tuner) (frames : List Frame) : Option Outcome :=
  some ⟨{ w with tuner := tuner }, frames, []⟩

/-- The next frames, with the frontend node changed. -/
@[simp]
def World.onNode (w : World) (node : Node) (frames : List Frame) : Option Outcome :=
  some ⟨{ w with node := node }, frames, []⟩

/-- The next frames, with nothing changed. -/
@[simp]
def World.goOn (w : World) (frames : List Frame) : Option Outcome :=
  some ⟨w, frames, []⟩

/-- `stop_held_stats_thread` in front of something, if there is a hold to stop. -/
def stopping (held : Option Fd) (frames : List Frame) : List Frame :=
  if held.isSome then .hold .stopHeldStats :: frames else frames

@[simp]
theorem all_stopping (p : Frame → Bool) (held : Option Fd) (frames : List Frame) :
    (stopping held frames).all p =
      ((held.isNone || p (.hold .stopHeldStats)) && frames.all p) := by
  unfold stopping
  cases held <;> simp

def holdAct (w : World) (χ : Choice) : HoldFrame → Option Outcome
  | .stopHeldStats =>
      if w.tuner.heldStatsThreadStarted then
        w.next w.tuner.stopHeldStats [.hold (.joinHeldStats w.tuner.heldStatsThread)]
      else w.next w.tuner.stopHeldStats []
  | .joinHeldStats thread =>
      if thread ∈ w.heldThreads then none else w.next w.tuner.heldStatsJoined []
  | .frontendClose fd => w.onNode (w.node.close fd) []
  | .tunerCloseHold =>
      match w.tuner.heldFd with
      | some held =>
          w.next w.tuner.closeHold [.hold .stopHeldStats, .hold (.frontendClose held)]
      | none => w.goOn []
  | .tunerOpenHold tuning =>
      if w.tuner.activeStream.isSome then w.goOn []
      else
        w.next w.tuner.detachHold (stopping w.tuner.heldFd
          [.hold (.holdReopen (w.tuner.heldFd.toList ++ w.tuner.parkedFd.toList) tuning)])
  | .holdReopen (old :: olds) tuning =>
      w.onNode (w.node.close old) [.hold (.holdReopen olds tuning)]
  | .holdReopen [] tuning =>
      match w.node.open? χ.fd χ.ok with
      | some node => w.onNode node [.hold (.holdTune χ.fd tuning)]
      | none => w.goOn []
  | .holdTune fd tuning =>
      if χ.ok then w.onNode (w.node.tune fd tuning) [.hold (.installHoldFd [] fd)]
      else w.goOn [.hold (.frontendClose fd)]
  | .installHoldFd (old :: olds) fd =>
      w.onNode (w.node.close old) [.hold (.installHoldFd olds fd)]
  | .installHoldFd [] fd =>
      if w.tuner.activeStream.isSome ∨ w.tuner.heldFd.isSome then
        w.goOn [.hold (.frontendClose fd)]
      else if χ.started then
        some ⟨{ w with
          tuner := w.tuner.installHold fd w.nextHeldThread true
          heldThreads := w.nextHeldThread :: w.heldThreads
          nextHeldThread := w.nextHeldThread + 1 },
          [], [[.stats (.heldStatsThread w.nextHeldThread)]]⟩
      else w.next (w.tuner.installHold fd w.nextHeldThread false) []
  | .tunerOpenHoldFromFd fd =>
      if w.tuner.activeStream.isSome then w.goOn [.hold (.frontendClose fd)]
      else
        w.next w.tuner.detachHold (stopping w.tuner.heldFd
          [.hold (.installHoldFd (w.tuner.heldFd.toList ++ w.tuner.parkedFd.toList) fd)])

@[simp]
def World.stopStream (w : World) (stream : DvbStream) : World :=
  { w with streams := w.streams.modify stream.id fun cell => { cell with stopped := true } }

/-- The stats thread of a stream has not returned yet. -/
def World.statsRunning (w : World) (stream : DvbStream) : Bool :=
  stream.statsThreadStarted && (w.streams[stream.id]?).any StreamCell.statsRunning

def releaseAct (w : World) (χ : Choice) : ReleaseFrame → Option Outcome
  | .tunerRelease =>
      match w.tuner.activeStream with
      | some stream =>
          w.next (w.tuner.tunerSetStream none)
            [.release (.streamTeardown stream false), .release .tunerReleaseClear]
      | none => w.next (w.tuner.tunerSetStream none) [.release .tunerReleaseClear]
  | .streamTeardown stream keepFrontend =>
      some ⟨w.stopStream stream, [.release (.streamJoin stream keepFrontend)], []⟩
  | .streamJoin stream keepFrontend =>
      if w.statsRunning stream then none
      else if keepFrontend then w.goOn [.release (.parkInstall stream.frontendFd)]
      else w.goOn [.hold (.frontendClose stream.frontendFd)]
  | .tunerReleaseClear =>
      if w.tuner.tunedFrequencyHz ≠ 0 ∧ w.tuner.heldFd = none then
        w.next w.tuner.releaseClear [.hold (.tunerOpenHold w.tuner.tuning)]
      else w.next w.tuner.releaseClear []
  | .tunerReleasePark =>
      match w.tuner.activeStream with
      | some stream =>
          if w.tuner.tunedFrequencyHz ≠ 0 then
            w.next (w.tuner.tunerSetStream none)
              [.release (.tunerReleaseParkRestore (some stream))]
          else w.next (w.tuner.tunerSetStream none) [.release (.streamTeardown stream true)]
      | none =>
          w.next (w.tuner.tunerSetStream none) [.release (.tunerReleaseParkRestore none)]
  | .tunerReleaseParkRestore stream =>
      w.next (w.tuner.tunerSetStream stream) [.release .tunerRelease]
  | .parkInstall fd =>
      if χ.ok then
        w.next (w.tuner.parkInstall (some fd)) [.release (.parkSpawn (w.tuner.parkGeneration + 1))]
      else w.next (w.tuner.parkInstall none) [.hold (.frontendClose fd)]
  | .parkSpawn generation =>
      if χ.ok then some ⟨w, [], [[.release (.parkExpiry generation)]]⟩
      else w.goOn [.release (.parkExpiry generation)]
  | .parkExpiry generation =>
      match w.tuner.parkExpired generation with
      | some fd => w.next (w.tuner.parkExpire generation) [.hold (.frontendClose fd)]
      | none => w.next (w.tuner.parkExpire generation) []

/-- `*ch` of a streamer: a pull holds a pointer into the database. -/
def Streamer.channel (db : ChannelDb) : Streamer → DvbChannel
  | .push ctx => ctx.channel
  | .pull key _ => db.deref key

/-- What a streamer is going to tune to. -/
def Streamer.tuning (who : Streamer) (db : ChannelDb) : Tuning :=
  ⟨(who.channel db).frequencyHz, (who.channel db).delivery⟩

/-- The calls of `tuner_try_claim` and `tuner_try_claim_wait` for a stream. -/
@[simp]
def tryClaim (db : ChannelDb) (key : ChannelKey) (peer : UInt32) : Frame :=
  .claim (.tunerTryClaim key peer ((Streamer.pull key peer).tuning db))

@[simp]
def Streamer.claimWait (who : Streamer) (db : ChannelDb) : Frame :=
  .claim (.tunerTryClaimWait (.streamer who (who.tuning db)))

def Claimant.want : Claimant → Option Tuning
  | .streamer _ want => some want
  | .startupScan => none

def Claimant.granted (reused : Option Fd) : Claimant → Granted
  | .streamer who _ => .streamer who reused
  | .startupScan => .startupScan

/-- What a claimer does with the tuner. -/
def Granted.frames : Granted → List Frame
  | .streamer (.push ctx) reused => [.stream (.dvbStreamOpen (.push ctx) reused)]
  | .streamer (.pull key peer) reused => [.pull (.pullSetPeer key peer reused)]
  | .startupScan => [.scan .startupOpen]

/-- What a claimer does when its wait has timed out. -/
def Claimant.claimTimedOut (db : ChannelDb) : Claimant → List Frame
  | .streamer (.push ctx) _ => [.push (.pushDone ctx)]
  | .streamer (.pull key peer) _ => [tryClaim db key peer]
  | .startupScan => []

/-- The end of a successful claim by `t`, the tuner record at that point. -/
def World.claim (w : World) (t : Tuner) (who : Claimant) : Option Outcome :=
  w.next t.claimed (stopping t.heldFd
    [.claim (.claimClosing (t.detached.closing who.want)
      (who.granted (t.detached.reused who.want)))])

def claimAct (w : World) (χ : Choice) : ClaimFrame → Option Outcome
  | .tunerTryClaim key peer want =>
      if w.tuner.busy then w.goOn [] else w.claim w.tuner (.streamer (.pull key peer) want)
  | .tunerTryClaimWait who =>
      if w.tuner.busy then w.next w.tuner.claimWait [.claim (.tunerTryClaimWaiting who)]
      else w.claim w.tuner who
  | .tunerTryClaimWaiting who =>
      if w.tuner.busy = false then w.claim w.tuner.claimWaited who
      else if χ.timedOut then w.next w.tuner.claimWaited (who.claimTimedOut w.db)
      else none
  | .claimClosing (old :: olds) granted =>
      w.onNode (w.node.close old) [.claim (.claimClosing olds granted)]
  | .claimClosing [] granted => w.goOn granted.frames

/-- What a streamer does when `dvb_stream_open` has failed. -/
def Streamer.openFailed : Streamer → List Frame
  | .push ctx => [.release .tunerRelease, .push (.pushDone ctx)]
  | .pull _ _ => [.release .tunerRelease]

def Streamer.opened (stream : DvbStream) : Streamer → List Frame
  | .push ctx => [.push (.pushBind ctx stream)]
  | .pull key _ => [.pull (.pullBind key stream)]

/-- The stream object of an open and locked frontend. -/
def World.newStream (w : World) (fd : Fd) (started : Bool) : DvbStream :=
  ⟨w.streams.length, fd, started, w.node.tuning.getD ⟨0, .atscVsb⟩⟩

def streamAct (w : World) (χ : Choice) : StreamFrame → Option Outcome
  | .dvbStreamOpen who adopt =>
      let delivery := (who.channel w.db).delivery
      match adopt with
      | some fd => w.goOn [.stream (.streamTune who delivery fd true)]
      | none =>
          match w.node.open? χ.fd χ.ok with
          | some node => w.onNode node [.stream (.streamTune who delivery χ.fd false)]
          | none => w.goOn who.openFailed
  | .streamTune who delivery fd adopted =>
      let tuning : Tuning := ⟨(who.channel w.db).frequencyHz, delivery⟩
      if adopted ∧ w.node.opener = some fd ∧ w.node.tuning = some tuning then
        w.goOn [.stream (.streamWaitLock who delivery fd false)]
      else if χ.ok then
        w.onNode (w.node.tune fd tuning) [.stream (.streamWaitLock who delivery fd false)]
      else w.goOn (.hold (.frontendClose fd) :: who.openFailed)
  | .streamWaitLock who delivery fd retried =>
      if χ.ok then w.goOn [.stream (.streamStart who fd)]
      else if retried then w.goOn (.hold (.frontendClose fd) :: who.openFailed)
      else w.goOn [.stream (.streamReopenClose who delivery fd)]
  | .streamReopenClose who delivery fd =>
      w.onNode (w.node.close fd) [.stream (.streamReopen who delivery)]
  | .streamReopen who delivery =>
      match w.node.open? χ.fd χ.ok with
      | some node => w.onNode node [.stream (.streamRetune who delivery χ.fd)]
      | none => w.goOn who.openFailed
  | .streamRetune who delivery fd =>
      if χ.ok then
        w.onNode (w.node.tune fd ⟨(who.channel w.db).frequencyHz, delivery⟩)
          [.stream (.streamWaitLock who delivery fd true)]
      else w.goOn (.hold (.frontendClose fd) :: who.openFailed)
  | .streamStart who fd =>
      if χ.ok = false then w.goOn (.hold (.frontendClose fd) :: who.openFailed)
      else if χ.started then
        some ⟨{ w with streams := w.streams ++ [⟨Reading.zero, false, false, true⟩] },
          who.opened (w.newStream fd true), [[.stats (.streamStatsRead (w.newStream fd true))]]⟩
      else
        some ⟨{ w with streams := w.streams ++ [⟨Reading.zero, false, false, false⟩] },
          who.opened (w.newStream fd false), []⟩

def pushAct (w : World) (χ : Choice) : PushFrame → Option Outcome
  | .pushStart ctx =>
      if χ.ok ∧ (inetPton ctx.destIp).isSome then
        w.goOn [(Streamer.push ctx).claimWait w.db]
      else w.goOn [.push (.pushDone ctx)]
  | .pushBind ctx stream =>
      w.next (w.tuner.tunerBindChannel ctx.channel ctx.programOverride)
        [.push (.pushSetStream ctx stream)]
  | .pushSetStream ctx stream =>
      w.next (w.tuner.tunerSetStream (some stream)) [.push (.pushLoop ctx)]
  | .pushLoop ctx =>
      if w.tuner.udpPushStopRequested then w.goOn [.push (.pushEnd ctx)]
      else w.goOn [.push (.pushRead ctx)]
  | .pushRead ctx =>
      if χ.ok = false then w.goOn [.push (.pushEnd ctx)]
      else if χ.more then w.goOn [.push (.pushSend ctx)]
      else w.goOn [.push (.pushLoop ctx)]
  | .pushSend ctx =>
      if χ.ok then w.goOn [.push (.pushLoop ctx)] else w.goOn [.push (.pushEnd ctx)]
  | .pushEnd ctx =>
      w.next (w.tuner.setTarget noneText) [.release .tunerRelease, .push (.pushDone ctx)]
  | .pushDone ctx => w.next (w.tuner.udpPushDone ctx.generation) []

def pullAct (w : World) (χ : Choice) : PullFrame → Option Outcome
  | .streamChannelToClient key peer anyTuner =>
      match w.db.find? key with
      | none => w.goOn []
      | some _ =>
          if anyTuner then w.goOn [.pull (.claimForPeer key peer)]
          else w.goOn [tryClaim w.db key peer]
  | .claimForPeer key peer =>
      if peer ≠ 0 ∧ w.tuner.busy = true ∧ w.tuner.httpPeerAddr = peer then
        w.goOn [(Streamer.pull key peer).claimWait w.db]
      -- Another tuner of the pool can be the one that is taken.
      else if χ.more then w.goOn []
      else w.goOn [tryClaim w.db key peer]
  | .pullSetPeer key peer reused =>
      w.next (w.tuner.setHttpPeerAddr peer) [.stream (.dvbStreamOpen (.pull key peer) reused)]
  | .pullBind key stream =>
      w.next (w.tuner.tunerBindChannel (w.db.deref key) dvbProgramDefault)
        [.pull (.pullSetStream key stream)]
  | .pullSetStream key stream =>
      w.next (w.tuner.tunerSetStream (some stream)) [.pull (.pullStream key)]
  | .pullStream key =>
      if χ.more then w.goOn [.pull (.pullStream key)] else w.goOn [.pull (.releaseHttpPull key)]
  | .releaseHttpPull key =>
      w.next (w.tuner.pullReset (w.db.deref key)) [.release .tunerReleasePark]

def keepaliveTimeoutMs : Nat := 15000

def setAct (w : World) (χ : Choice) : SetFrame → Option Outcome
  | .udpPushStop =>
      if w.tuner.udpPushActive then w.next w.tuner.udpPushStop [.set .udpPushStopWait]
      else w.goOn []
  | .udpPushStopWait =>
      -- About two seconds of polling, after which the stop gives up.
      if w.tuner.udpPushActive = true ∧ χ.timedOut = false then none else w.goOn []
  | .targetSet value =>
      if value = noneText then w.goOn [.set .udpPushStop, .set .targetNone]
      else
        match parseUdpTarget value with
        | none => w.goOn []
        | some target => w.goOn [.set .udpPushStop, .set (.pushStartRead ⟨value, target⟩)]
  | .targetNone => w.next (w.tuner.setTarget noneText) []
  | .pushStartRead request =>
      match w.tuner.pushSource with
      | .resolved key => w.goOn [.set (.pushStartFind request key w.tuner.program)]
      | .synthetic tuning => w.goOn [.set (.pushStartLocked request tuning)]
      | .siblings freq => w.goOn [.set (.pushStartSiblings request freq w.tuner.program)]
      | .nothing => w.goOn []
  | .pushStartFind request key program =>
      match w.db.find? key with
      | some _ => w.goOn [.set (.pushStartCreate request (.db key) program)]
      | none => w.goOn []
  | .pushStartLocked request tuning =>
      if w.tuner.lockedOn tuning.freq then
        w.goOn [.set (.pushStartCreate request (.synth tuning) 0)]
      else w.goOn []
  | .pushStartSiblings request freq program =>
      match (w.db.onFreq freq).head? with
      | some channel => w.goOn [.set (.pushStartVerify request channel.key freq program)]
      | none =>
          if χ.timedOut then w.goOn []
          else w.goOn [.set (.pushStartSiblings request freq program)]
  | .pushStartVerify request key freq program =>
      if w.tuner.tunedFrequencyHz = freq ∧ w.tuner.vchResolved = false then
        w.goOn [.set (.pushStartCreate request (.db key) program)]
      else w.goOn []
  | .pushStartCreate request channel program =>
      if χ.ok then
        some ⟨{ w with tuner := w.tuner.udpPushCreate request.target χ.now true },
          [.set (.targetWrite request (w.tuner.pushCount + 1))],
          [[.push (.pushStart
            (w.tuner.pushCtx (channel.deref w.db) program request.target))]]⟩
      else w.next (w.tuner.udpPushCreate request.target χ.now false) []
  | .targetWrite request _ => w.next (w.tuner.setTarget request.value) []
  | .channelSet value =>
      if value = noneText then
        w.goOn [.set .udpPushStop, .hold .tunerCloseHold, .set .channelNone]
      else
        match channelRequest w.tuner.channelmap value with
        | some request => w.goOn [.set (.channelClaim request)]
        | none => w.goOn []
  | .channelNone => w.next w.tuner.channelNoneReset []
  | .channelClaim request =>
      if w.tuner.busy then w.goOn [.set (.channelQueue request)]
      else w.next w.tuner.claimed [.set (.channelSelect request w.tuner.staleHeldFd)]
  | .channelQueue request =>
      if w.tuner.activeStream = none ∧ w.tuner.scanWorkerActive = true then
        w.next (w.tuner.channelQueue request.delivery request.value)
          [.set (.channelWait w.tuner.scanGeneration request.value.freq)]
      else w.goOn []
  | .channelSelect request staleHeldFd =>
      w.next (w.tuner.channelSelect request.delivery request.value.freq)
        [.set (.channelSpawn (w.tuner.channelScanCtx request staleHeldFd))]
  | .channelSpawn ctx =>
      if χ.ok then
        some ⟨w, [.set (.channelWait ctx.generation ctx.freq)], [[.scan (.scanThread ctx)]]⟩
      else
        match ctx.staleHeldFd with
        | some stale =>
            w.goOn [.hold .stopHeldStats, .hold (.frontendClose stale), .set .channelUnmark,
              .release .tunerRelease]
        | none => w.goOn [.set .channelUnmark, .release .tunerRelease]
  | .channelUnmark => w.next w.tuner.scanWorkerDone []
  | .channelWait generation freq =>
      if (w.tuner.lastAttemptGeneration = generation ∧ w.tuner.lastAttemptFreq = freq) ∨
          χ.timedOut = true then
        w.goOn []
      else none
  | .channelmapSet value =>
      if channelmapSupported value then
        w.goOn [.set .udpPushStop, .hold .tunerCloseHold, .set (.channelmapReset value)]
      else w.goOn []
  | .channelmapReset value => w.next (w.tuner.channelmapReset value) []
  | .vchannelSet key =>
      match w.db.find? key with
      | some _ => w.goOn [.set .udpPushStop, .set (.vchannelBind key)]
      | none => w.goOn []
  | .vchannelBind key =>
      w.next (w.tuner.tunerBindChannel (w.db.deref key) dvbProgramDefault)
        [.set (.vchannelStatus key)]
  | .vchannelStatus key => w.next w.tuner.vchannelStatus [.set (.vchannelHold key)]
  | .vchannelHold key =>
      w.goOn [.hold (.tunerOpenHold ⟨(w.db.deref key).frequencyHz, (w.db.deref key).delivery⟩)]
  | .programSet program => w.next { w.tuner with program := program, filterOverride := [] } []
  | .filterSet value =>
      if value = noneText ∨ value = [] then w.next { w.tuner with filterOverride := [] } []
      else if (pidFilterParse value).isSome then
        w.next { w.tuner with filterOverride := truncate 256 value } []
      else w.goOn []
  | .keepalivePacket addr port =>
      if w.tuner.udpPushActive = true ∧ w.tuner.keepaliveMatchAddr = addr ∧
          w.tuner.keepaliveMatchPort = port then
        w.next { w.tuner with lastKeepaliveTime := χ.now } []
      else w.goOn []
  | .sweepStalePushes =>
      if w.tuner.udpPushActive = true ∧ w.tuner.udpPushStopRequested = false ∧
          w.tuner.lastKeepaliveTime + keepaliveTimeoutMs < χ.now then
        w.goOn [.set .udpPushStop]
      else w.goOn []
  | .dbAdd channels => some ⟨{ w with db := w.db.addAll channels }, [], []⟩

@[simp]
def ScanJob.finalize (job : ScanJob) (lock : LockResult) (t : Tuner) : Tuner :=
  t.finalizeLockResult job.freq lock.locked job.ctx.delivery job.ctx.generation lock.tunedTo

def scanAct (w : World) (χ : Choice) : ScanFrame → Option Outcome
  | .scanThread ctx =>
      match ctx.staleHeldFd with
      | some stale => w.goOn [.hold .stopHeldStats, .scan (.scanCloseStale ctx stale)]
      | none => w.goOn [.scan (.scanOpen ctx)]
  | .scanCloseStale ctx stale => w.onNode (w.node.close stale) [.scan (.scanOpen ctx)]
  | .scanOpen ctx =>
      match w.node.open? χ.fd χ.ok with
      | some node =>
          w.onNode node [.scan (.scanTune ⟨ctx, some χ.fd, ctx.freq, ctx.rfChannel, none⟩)]
      | none => w.goOn [.scan (.scanTune ⟨ctx, none, ctx.freq, ctx.rfChannel, none⟩)]
  | .scanTune job =>
      match job.ffd with
      | some fd =>
          if χ.ok then
            w.onNode (w.node.tune fd (job.ctx.attempt job.freq)) [.scan (.scanWaitLock job fd)]
          else w.goOn [.scan (.scanRecord job ⟨false, none⟩)]
      | none => w.goOn [.scan (.scanRecord job ⟨false, none⟩)]
  | .scanWaitLock job fd =>
      if χ.more then
        w.goOn [.scan (.publishScanStatsRead job fd), .scan (.scanWaitLock job fd)]
      else if χ.ok then w.goOn [.scan (.scanRecord job ⟨true, w.node.tuning⟩)]
      else w.goOn [.scan (.scanRecord job ⟨false, none⟩)]
  | .publishScanStatsRead job fd =>
      w.goOn [.scan (.publishScanStats job (w.node.read fd χ.stats))]
  | .publishScanStats job reading => w.next (w.tuner.publishScanStats job.freq reading) []
  | .scanRecord job lock =>
      w.next (w.tuner.recordAttempt job.freq lock.locked job.ctx.generation)
        [.scan (.scanFinalize job lock)]
  | .scanFinalize job lock =>
      match lock.locked, job.ffd with
      | true, some fd =>
          w.next (job.finalize lock w.tuner) [.scan (.publishScanStatsRead job fd),
            .scan (.publishScanStatsRead job fd), .scan (.scanReadPsip job)]
      | _, _ => w.next (job.finalize lock w.tuner) [.scan (.scanDequeue job)]
  | .scanReadPsip job =>
      some ⟨{ w with db := w.db.addAll χ.found }, [.scan (.scanDequeue job)], []⟩
  | .scanDequeue job =>
      match w.tuner.pendingQueue.pop? with
      | some (entry, rest) =>
          w.next { w.tuner with pendingQueue := rest }
            [.scan (.scanTune
              { job with
                freq := entry.freq
                rfChannel := entry.rfChannel
                accepted := some entry.accepted })]
      | none =>
          if w.tuner.claimWaiters ≠ 0 ∨ χ.timedOut = true then w.goOn [.scan (.scanExit job)]
          else none
  | .scanExit job =>
      match job.ffd with
      | some fd =>
          if w.tuner.scanGeneration = job.ctx.generation then
            w.goOn [.hold (.tunerOpenHoldFromFd fd), .scan .scanWorkerDone]
          else w.goOn [.hold (.frontendClose fd), .scan .scanWorkerDone]
      | none => w.goOn [.scan .scanWorkerDone]
  | .scanWorkerDone => w.next w.tuner.scanWorkerDone [.release .tunerRelease]
  | .startupOpen =>
      match w.node.open? χ.fd χ.ok with
      | some node =>
          if χ.more then w.onNode node [.scan (.startupTune χ.fd 0)]
          else w.onNode node [.hold (.frontendClose χ.fd), .release .tunerRelease]
      | none => w.goOn [.release .tunerRelease]
  | .startupTune fd index =>
      match atscFreqTable[index]? with
      | some entry =>
          if χ.ok then
            w.onNode (w.node.tune fd ⟨entry.2, .atscVsb⟩) [.scan (.startupWaitLock fd index)]
          else w.goOn [.scan (.startupTune fd (index + 1))]
      | none => w.goOn [.hold (.frontendClose fd), .release .tunerRelease]
  | .startupWaitLock fd index =>
      some ⟨{ w with db := if χ.ok then w.db.addAll χ.found else w.db },
        [.scan (.startupTune fd (index + 1))], []⟩

/-- The stats thread was told to stop, or its descriptor is no longer held. -/
def World.heldStatsOver (w : World) (fd : Fd) : Bool :=
  w.tuner.heldStatsStopRequested || w.tuner.heldFd != some fd

@[simp]
def World.heldStatsReturn (w : World) (thread : Nat) : Option Outcome :=
  some ⟨{ w with heldThreads := w.heldThreads.filter (· ≠ thread) }, [], []⟩

def World.streamStopped (w : World) (stream : DvbStream) : Bool :=
  (w.streams[stream.id]?).all StreamCell.stopped

@[simp]
def World.streamStatsReturn (w : World) (stream : DvbStream) : Option Outcome :=
  some ⟨{ w with
    streams := w.streams.modify stream.id fun cell => { cell with statsRunning := false } },
    [], []⟩

@[simp]
def World.publishStreamStats (w : World) (stream : DvbStream) (reading : Reading) : World :=
  { w with
    streams := w.streams.modify stream.id fun cell =>
      { cell with statsCache := reading, statsCacheValid := true } }

def statsAct (w : World) (χ : Choice) : StatsFrame → Option Outcome
  | .heldStatsThread thread =>
      match w.tuner.heldFd with
      | some fd => w.goOn [.stats (.heldStatsRead thread fd)]
      | none => w.heldStatsReturn thread
  | .heldStatsRead thread fd =>
      w.goOn [.stats (.heldStatsPublish thread fd (w.node.read fd χ.stats))]
  | .heldStatsPublish thread fd reading =>
      if w.heldStatsOver fd then w.heldStatsReturn thread
      else w.next (w.tuner.publishHeldStats reading) [.stats (.heldStatsSleep thread fd)]
  | .heldStatsSleep thread fd =>
      if w.heldStatsOver fd then w.heldStatsReturn thread
      else w.goOn [.stats (.heldStatsRead thread fd)]
  | .streamStatsRead stream =>
      w.goOn [.stats (.streamStatsPublish stream (w.node.read stream.frontendFd χ.stats))]
  | .streamStatsPublish stream reading =>
      if w.streamStopped stream then w.streamStatsReturn stream
      else
        some ⟨w.publishStreamStats stream reading, [.stats (.streamStatsSleep stream)], []⟩
  | .streamStatsSleep stream =>
      if w.streamStopped stream then w.streamStatsReturn stream
      else w.goOn [.stats (.streamStatsRead stream)]

/-- The action of a frame. -/
def act (w : World) (frame : Frame) (χ : Choice) : Option Outcome :=
  match frame with
  | .hold frame => holdAct w χ frame
  | .release frame => releaseAct w χ frame
  | .claim frame => claimAct w χ frame
  | .stream frame => streamAct w χ frame
  | .push frame => pushAct w χ frame
  | .pull frame => pullAct w χ frame
  | .set frame => setAct w χ frame
  | .scan frame => scanAct w χ frame
  | .stats frame => statsAct w χ frame

/-- What can begin at any time: a request, a sweep of the keepalive listener,
the startup scan, and a scan on another tuner that adds channels. -/
def arrives : Frame → Bool
  | .set (.targetSet _) | .set (.channelSet _) | .set (.channelmapSet _)
  | .set (.vchannelSet _) | .set (.programSet _) | .set (.filterSet _)
  | .set (.keepalivePacket _ _) | .set .sweepStalePushes | .set (.dbAdd _)
  | .pull (.streamChannelToClient _ _ _)
  | .claim (.tunerTryClaimWait .startupScan) => true
  | _ => false

theorem forall_arrives {p : Frame → Prop} :
    (∀ frame, arrives frame = true → p frame) ↔
      (∀ value, p (.set (.targetSet value))) ∧ (∀ value, p (.set (.channelSet value))) ∧
        (∀ value, p (.set (.channelmapSet value))) ∧ (∀ key, p (.set (.vchannelSet key))) ∧
        (∀ program, p (.set (.programSet program))) ∧ (∀ value, p (.set (.filterSet value))) ∧
        (∀ addr port, p (.set (.keepalivePacket addr port))) ∧ p (.set .sweepStalePushes) ∧
        (∀ channels, p (.set (.dbAdd channels))) ∧
        (∀ key peer anyTuner, p (.pull (.streamChannelToClient key peer anyTuner))) ∧
        p (.claim (.tunerTryClaimWait .startupScan)) := by
  constructor
  · intro each
    exact ⟨fun _ => each _ rfl, fun _ => each _ rfl, fun _ => each _ rfl, fun _ => each _ rfl,
      fun _ => each _ rfl, fun _ => each _ rfl, fun _ _ => each _ rfl, each _ rfl,
      fun _ => each _ rfl, fun _ _ _ => each _ rfl, each _ rfl⟩
  · rintro ⟨targetSet, channelSet, channelmapSet, vchannelSet, programSet, filterSet,
      keepalivePacket, sweepStalePushes, dbAdd, pull, startupScan⟩ frame arrived
    cases frame with
    | set frame =>
        cases frame with
        | targetSet value => exact targetSet value
        | channelSet value => exact channelSet value
        | channelmapSet value => exact channelmapSet value
        | vchannelSet key => exact vchannelSet key
        | programSet program => exact programSet program
        | filterSet value => exact filterSet value
        | keepalivePacket addr port => exact keepalivePacket addr port
        | sweepStalePushes => exact sweepStalePushes
        | dbAdd channels => exact dbAdd channels
        | _ => exact absurd arrived Bool.false_ne_true
    | pull frame =>
        cases frame with
        | streamChannelToClient key peer anyTuner => exact pull key peer anyTuner
        | _ => exact absurd arrived Bool.false_ne_true
    | claim frame =>
        cases frame with
        | tunerTryClaimWait claimant =>
            cases claimant with
            | startupScan => exact startupScan
            | _ => exact absurd arrived Bool.false_ne_true
        | _ => exact absurd arrived Bool.false_ne_true
    | _ => exact absurd arrived Bool.false_ne_true

/-- The threads of one tuner. -/
def machine : Interleaving.Machine World Frame Choice where
  act := act
  arrives := arrives

/-- Right after start-up no thread uses the tuner. -/
def start (db : ChannelDb) : Interleaving.Config World Frame where
  shared := World.init db
  threads := []

abbrev Schedule := List (Interleaving.Event Frame Choice)

/-- Steps of one thread in which every call succeeds. -/
def steps (thread count : Nat) : Schedule :=
  List.replicate count (.act thread {})

/-- A database with one station, for schedules. -/
def oneStation : ChannelDb :=
  ChannelDb.empty.add
    { DvbChannel.zero with
      major := 2, minor := 1, frequencyHz := 57000000, programNumber := 3,
      pmtPid := 0x30, pcrPid := 0x31, videoPid := 0x31, audioPid := 0x34 }

end HdhrEmu
