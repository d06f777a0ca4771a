import HdhrEmu.AutoFilter
import HdhrEmu.Config
import HdhrEmu.PidFilterText
import HdhrEmu.StaticFiles
import HdhrEmu.WebReplies

/-!
# What a control request is for

`dispatch_getset` finds the handler by the name of the parameter.  A GET is
answered from the state of the server at once.  A SET of a tuner is a call,
whose critical sections run between those of all other threads.
-/

namespace HdhrEmu

open CString

/-- What a request is answered with. -/
inductive Answer
  | value (text : CStr)
  | error (msg : CStr)
  deriving DecidableEq, Repr

/-- The handler that a request is passed on to. -/
inductive Handler
  | help
  | sysGet (leaf : CStr)
  | sysSet (leaf value : CStr)
  | tunerGet (idx : Nat) (leaf : CStr)
  | tunerSet (idx : Nat) (leaf value : CStr)
  | unknownParameter
  deriving DecidableEq, Repr

/-- `parse_tuner_path`. -/
def parseTunerPath (name : CStr) (maxTuners : Int) : Option (Nat × CStr) :=
  ("/tuner".toList.isPrefixOf? name).bind fun rest =>
    (scanInt rest).bind fun (idx, rest) =>
      if idx < 0 ∨ maxTuners ≤ idx then none
      else (scanLiteral '/' rest).map fun leaf => (idx.toNat, leaf)

def dispatchGetset (cfg : Settings) (name : CStr) (value : Option CStr) : Handler :=
  if value = none ∧ name = "help".toList then .help
  else
    match "/sys/".toList.isPrefixOf? name with
    | some leaf =>
        match value with
        | some value => .sysSet leaf value
        | none => .sysGet leaf
    | none =>
        match parseTunerPath name cfg.tunerCount.val with
        | none => .unknownParameter
        | some (idx, leaf) =>
            match value with
            | some value => .tunerSet idx leaf value
            | none => .tunerGet idx leaf

def helpText : CStr :=
  ("Supported configuration options:\n" ++
    "/sys/8vsb_override\n" ++
    "/sys/copyright\n" ++
    "/sys/debug\n" ++
    "/sys/features\n" ++
    "/sys/hwmodel\n" ++
    "/sys/model\n" ++
    "/sys/restart <resource>\n" ++
    "/sys/version\n" ++
    "/tuner<n>/channel <modulation>:<freq|ch>\n" ++
    "/tuner<n>/channelmap <channelmap>\n" ++
    "/tuner<n>/debug\n" ++
    "/tuner<n>/filter \"0x<nnnn>-0x<nnnn> [...]\"\n" ++
    "/tuner<n>/lockkey\n" ++
    "/tuner<n>/program <program number>\n" ++
    "/tuner<n>/status\n" ++
    "/tuner<n>/streaminfo\n" ++
    "/tuner<n>/target <ip>:<port>\n" ++
    "/tuner<n>/vchannel <major.minor>\n").toList

def unknownParameter : CStr :=
  "ERROR: unknown parameter".toList

def writeOnlyOrUnknown : CStr :=
  "ERROR: parameter is write-only or unknown".toList

def readOnlyOrUnknown : CStr :=
  "ERROR: parameter is read-only or unknown".toList

/-- What the handlers ask the system for: the process, the time since the
start, the rates of the stream and the raw values of a reading. -/
structure Instruments where
  pid : Int32
  uptime : Int64
  bps : Nat
  pps : Nat
  raw : Reading → RawStats

/-- `HDHR_EMULATOR_COPYRIGHT`, in UTF-8. -/
def hdhrEmulatorCopyright : CStr :=
  ("hdhr-emu \xe2\x80\x94 independent, clean-room HDHomeRun-protocol-compatible " ++
    "emulator (github.com/majortom9/hdhr-emu). Not Silicondust software; " ++
    "not affiliated with or endorsed by SiliconDust USA Inc.").toList

def featuresText : CStr :=
  ("channelmap: us-bcast us-cable us-hrc us-irc kr-bcast kr-cable\n" ++
    "modulation: 8vsb qam256 qam64\n" ++
    "auto-modulation: auto auto6t auto6c qam\n").toList

/-- `g_8vsb_override`. -/
abbrev VsbOverride := Text 32

theorem vsbOverride_positive : 0 < 32 := by
  decide

def handleSysGet (cfg : Settings) (override : VsbOverride) (instruments : Instruments)
    (leaf : CStr) : Answer :=
  if leaf = "copyright".toList then .value hdhrEmulatorCopyright
  else if leaf = "model".toList then .value cfg.firmwareName.val
  else if leaf = "hwmodel".toList then .value cfg.model.val
  else if leaf = "8vsb_override".toList then .value override.val
  else if leaf = "debug".toList then
    .value ("pid=".toList ++ decimalInt instruments.pid.toInt ++ " uptime=".toList ++
      decimalInt instruments.uptime.toInt ++ ['s'])
  else if leaf = "version".toList then .value cfg.firmwareVersion.val
  else if leaf = "features".toList then .value featuresText
  else .error readOnlyOrUnknown

/-- What a SET below `/sys/` does. -/
inductive SysCall
  | override (text : VsbOverride)
  /-- The value is sent, and the process exits. -/
  | restart (value : CStr)
  | refused (msg : CStr)

def handleSysSet (cfg : Settings) (leaf value : CStr) : SysCall :=
  if leaf = "8vsb_override".toList then .override (Text.print vsbOverride_positive value)
  else if leaf = "restart".toList then
    if cfg.allowRemoteRestart = false then
      .refused "ERROR: remote restart disabled (see allow_remote_restart in config)".toList
    else .restart value
  else .refused readOnlyOrUnknown

def lockkeyText (lockkey : UInt32) : CStr :=
  if lockkey = 0 then noneText else hexOfId (idDigits lockkey)

def handleTunerGet (w : World) (lockkey : UInt32) (instruments : Instruments) (leaf : CStr) :
    Answer :=
  if leaf = "channel".toList then .value w.tuner.channel
  else if leaf = "channelmap".toList then .value w.tuner.channelmap
  else if leaf = "vchannel".toList then .value w.vchannelReply
  else if leaf = "program".toList then .value (decimalSigned w.tuner.program)
  else if leaf = "filter".toList then .value (filterReply w.tuner w.db)
  else if leaf = "target".toList then .value w.tuner.target
  else if leaf = "lockkey".toList then .value (lockkeyText lockkey)
  else if leaf = "status".toList then
    .value (truncate replySize (w.statusReply instruments.bps instruments.pps).text)
  else if leaf = "streaminfo".toList then .value (streaminfoReply w.db w.tuner.tunedFrequencyHz)
  else if leaf = "debug".toList then .value (w.debugReply instruments.raw)
  else .error writeOnlyOrUnknown

/-- What a SET of a tuner does.  The value of the reply to a call is known
beforehand, or is the channel text of the tuner when the call returns. -/
inductive TunerCall
  | call (frame : SetFrame) (reply : Option CStr)
  | lockkey (key : UInt32)
  | refused (msg : CStr)

def handleTunerSet (leaf value : CStr) : TunerCall :=
  if leaf = "channelmap".toList then .call (.channelmapSet value) (some value)
  else if leaf = "vchannel".toList then
    match scanMajorMinor value with
    | none => .refused "ERROR: invalid channel format, expected major.minor".toList
    | some (major, minor) =>
        .call (.vchannelSet ⟨major, minor.getD 0⟩)
          (some (decimalSigned major ++ '.' :: decimalSigned (minor.getD 0)))
  else if leaf = "channel".toList then
    .call (.channelSet value) (if value = noneText then some noneText else none)
  else if leaf = "program".toList then .call (.programSet (atoi value)) (some value)
  else if leaf = "filter".toList then
    .call (.filterSet value) (some (if value = noneText ∨ value = [] then noneText else value))
  else if leaf = "target".toList then .call (.targetSet value) (some value)
  else if leaf = "lockkey".toList then
    .lockkey (if value = noneText then 0 else UInt32.ofNat (strtoulAnyBase value))
  else .refused readOnlyOrUnknown

/-- The name of a parameter of a tuner. -/
def tunerName (idx : Nat) (leaf : CStr) : CStr :=
  "/tuner".toList ++ (decimal idx ++ '/' :: leaf)

theorem parseTunerPath_tunerName {idx : Nat} {maxTuners : Int} (leaf : CStr)
    (inRange : (idx : Int) < maxTuners) (few : idx < 2 ^ 31) :
    parseTunerPath (tunerName idx leaf) maxTuners = some (idx, leaf) := by
  have ends : EndsNumeral ('/' :: leaf) := endsNumeral_cons (by decide) leaf
  have scanned := scanInt_decimalInt (i := idx) (by omega) (by omega) ends
  rw [decimalInt_natCast] at scanned
  rw [parseTunerPath, tunerName, isPrefixOf?_eq_some_iff.mpr rfl, Option.bind_some, scanned,
    Option.bind_some]
  dsimp only
  rw [if_neg (by omega), scanLiteral_cons, Option.map_some, Int.toNat_natCast]

/-- The parameters of a tuner are found under their names. -/
theorem dispatchGetset_tunerName {cfg : Settings} {idx : Nat} (leaf : CStr)
    (inRange : (idx : Int) < cfg.tunerCount.val) (value : Option CStr) :
    dispatchGetset cfg (tunerName idx leaf) value =
      match value with
      | some value => .tunerSet idx leaf value
      | none => .tunerGet idx leaf := by
  have few : idx < 2 ^ 31 := by
    have most := cfg.tunerCount.property.2
    have eight : hdhrMaxTuners = 8 := rfl
    omega
  have notHelp : ¬ (value = none ∧ tunerName idx leaf = "help".toList) := by
    rintro ⟨-, same⟩
    cases same
  have notSys : "/sys/".toList.isPrefixOf? (tunerName idx leaf) = none := rfl
  rw [dispatchGetset, if_neg notHelp, notSys]
  simp only [parseTunerPath_tunerName leaf inRange few]

end HdhrEmu
