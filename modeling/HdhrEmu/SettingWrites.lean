import HdhrEmu.ControlDispatch
import HdhrEmu.Lib.Alone
import HdhrEmu.SelectionWrites

/-!
# SETs that run through, and SETs that are refused

The settings of a tuner are written in critical sections of the SETs, and when
a stream binds its channel or a pull gives it back.  A SET consists of several
of these sections and of calls between them.  When no other thread writes in
the meantime, it does the whole of what it is for, or it is refused and has
done nothing.
-/

namespace HdhrEmu

open CString Interleaving

/-- A write to the settings of a tuner. -/
inductive SettingWrite
  | reset
  | channelmap (value : CStr)
  | raw (delivery : DeliverySystem) (freq : UInt32)
  | bound (ch : DvbChannel) (programOverride : Int)
  | released
  | program (program : Int)
  | filter (text : CStr)
  | target
  deriving DecidableEq

namespace Selection

variable (selection : Selection)

/-- The settings after a channel was deselected. -/
def deselected : Selection :=
  { selection with
    channel := noneText
    tunedFrequencyHz := 0
    vchResolved := false
    filterOverride := [] }

/-- The settings after a write. -/
def write : SettingWrite → Selection
  | .reset => selection.deselected
  | .channelmap value => { selection.deselected with channelmap := truncate 16 value }
  | .raw delivery freq =>
      { selection with
        channel := channelText delivery freq
        tunedFrequencyHz := freq
        vchResolved := false
        filterOverride := [] }
  | .bound ch programOverride =>
      { selection with
        channel := channelText ch.delivery ch.frequencyHz
        program := Tuner.boundProgram ch programOverride
        vchMajor := ch.major
        vchMinor := ch.minor
        vchResolved := true
        tunedFrequencyHz := ch.frequencyHz
        tunedDelivery := ch.delivery }
  | .released => { selection.deselected with program := dvbProgramDefault }
  | .program program => { selection with program := program, filterOverride := [] }
  | .filter text => { selection with filterOverride := text }
  | .target => selection

end Selection

/-- The settings of a tuner, and the lineup that they are understood by. -/
@[ext]
structure TunerView where
  selection : Selection
  db : ChannelDb

def World.view (w : World) : TunerView :=
  ⟨w.tuner.toSelection, w.db⟩

/-- What an action has to do with the settings. -/
inductive SettingMark
  | wrote (write : SettingWrite)
  | refused (msg : CStr)
  /-- Channels are added to the lineup. -/
  | lineup
  deriving DecidableEq

def unknownChannelMap : CStr :=
  "ERROR: unknown channel map".toList

def channelNotFound : CStr :=
  "ERROR: channel not found in scanned lineup (has a scan completed? see startup log)".toList

def badChannelValue : CStr :=
  "ERROR: expected \"none\", \"auto:<freq_hz>\", or \"<channelmap>:<N>\"".toList

def busyStreaming : CStr :=
  "ERROR: tuner busy (currently streaming)".toList

def busyScanning : CStr :=
  "ERROR: tuner busy (scan in progress)".toList

def badFilter : CStr :=
  "ERROR: expected \"none\" or \"0x<nnnn>[-0x<nnnn>] ...\"".toList

def badTarget : CStr :=
  "ERROR: expected \"none\" or \"udp://ip:port\"".toList

def settingMark : Marking World Frame SettingMark := fun w frame =>
  match frame with
  | .push (.pushBind ctx _) => some (.wrote (.bound ctx.channel ctx.programOverride))
  | .pull (.pullBind key _) => some (.wrote (.bound (w.db.deref key) dvbProgramDefault))
  | .pull (.releaseHttpPull key) =>
      if w.tuner.StillBound (w.db.deref key) then some (.wrote .released) else none
  | .set (.targetSet value) =>
      if value = noneText ∨ (parseUdpTarget value).isSome then none else some (.refused badTarget)
  | .set .targetNone | .set (.targetWrite _ _) => some (.wrote .target)
  | .set (.channelSet value) =>
      if value = noneText ∨ (channelRequest w.tuner.channelmap value).isSome then none
      else some (.refused badChannelValue)
  | .set .channelNone => some (.wrote .reset)
  | .set (.channelQueue request) =>
      if w.tuner.activeStream = none ∧ w.tuner.scanWorkerActive = true then
        some (.wrote (.raw request.delivery request.value.freq))
      else some (.refused (if w.tuner.activeStream.isSome then busyStreaming else busyScanning))
  | .set (.channelSelect request _) => some (.wrote (.raw request.delivery request.value.freq))
  | .set (.channelmapSet value) =>
      if channelmapSupported value then none else some (.refused unknownChannelMap)
  | .set (.channelmapReset value) => some (.wrote (.channelmap value))
  | .set (.vchannelSet key) =>
      if (w.db.find? key).isSome then none else some (.refused channelNotFound)
  | .set (.vchannelBind key) => some (.wrote (.bound (w.db.deref key) dvbProgramDefault))
  | .set (.vchannelStatus _) => some (.wrote (.filter []))
  | .set (.programSet program) => some (.wrote (.program program))
  | .set (.filterSet value) =>
      if value = noneText ∨ value = [] then some (.wrote (.filter []))
      else if (pidFilterParse value).isSome then some (.wrote (.filter (truncate 256 value)))
      else some (.refused badFilter)
  | .set (.dbAdd _) | .scan (.scanReadPsip _) | .scan (.startupWaitLock _ _) => some .lineup
  | _ => none

/-- What an action makes of the settings. -/
def SettingsStep (w : World) (frame : Frame) (outcome : Outcome) : Prop :=
  match settingMark w frame with
  | some (.wrote write) => outcome.shared.view = ⟨w.tuner.write write, w.db⟩
  | some .lineup => outcome.shared.tuner.toSelection = w.tuner.toSelection
  | _ => outcome.shared.view = w.view

section Groups

attribute [local simp] SettingsStep settingMark

variable {w : World} {χ : Choice} {outcome : Outcome}

theorem holdAct_settings {frame : HoldFrame} (acted : holdAct w χ frame = some outcome) :
    SettingsStep w frame outcome := by
  revert acted
  fun_cases holdAct w χ frame <;> intro acted <;> cases acted <;> rfl

theorem releaseAct_settings {frame : ReleaseFrame} (acted : releaseAct w χ frame = some outcome) :
    SettingsStep w frame outcome := by
  revert acted
  fun_cases releaseAct w χ frame <;> intro acted <;> cases acted <;>
    simp [SettingsStep, settingMark, World.view]

theorem claimAct_settings {frame : ClaimFrame} (acted : claimAct w χ frame = some outcome) :
    SettingsStep w frame outcome := by
  revert acted
  fun_cases claimAct w χ frame <;> intro acted <;> cases acted <;> rfl

theorem streamAct_settings {frame : StreamFrame} (acted : streamAct w χ frame = some outcome) :
    SettingsStep w frame outcome := by
  revert acted
  fun_cases streamAct w χ frame <;> intro acted <;> cases acted <;> rfl

theorem pushAct_settings {frame : PushFrame} (acted : pushAct w χ frame = some outcome) :
    SettingsStep w frame outcome := by
  revert acted
  fun_cases pushAct w χ frame <;> intro acted <;> cases acted <;>
    simp [SettingsStep, settingMark, World.view, Selection.write]

theorem pullAct_settings {frame : PullFrame} (acted : pullAct w χ frame = some outcome) :
    SettingsStep w frame outcome := by
  revert acted
  fun_cases pullAct w χ frame <;> intro acted <;> cases acted
  case case12 key =>
    by_cases bound : w.tuner.StillBound (w.db.deref key)
    · have reset : (w.tuner.pullReset (w.db.deref key)).toSelection = w.tuner.write .released := by
        rw [Tuner.pullReset, if_pos (show _ ∧ _ from bound)]
        rfl
      simp [SettingsStep, settingMark, bound, World.view, reset]
    · simp [SettingsStep, settingMark, bound, World.view, w.tuner.pullReset_of_not_stillBound bound]
  all_goals
    simp [SettingsStep, settingMark, World.view, Selection.write]

theorem setAct_settings {frame : SetFrame} (acted : setAct w χ frame = some outcome) :
    SettingsStep w frame outcome := by
  revert acted
  fun_cases setAct w χ frame <;> intro acted <;> cases acted
  case case32 request refused => simp only [SettingsStep, settingMark, if_neg refused]
  all_goals
    simp_all [SettingsStep, settingMark, World.view, Selection.write, Selection.deselected]

theorem scanAct_settings {frame : ScanFrame} (acted : scanAct w χ frame = some outcome) :
    SettingsStep w frame outcome := by
  revert acted
  fun_cases scanAct w χ frame <;> intro acted <;> cases acted <;>
    simp [SettingsStep, settingMark, World.view]

theorem statsAct_settings {frame : StatsFrame} (acted : statsAct w χ frame = some outcome) :
    SettingsStep w frame outcome := by
  revert acted
  fun_cases statsAct w χ frame <;> intro acted <;> cases acted <;>
    simp [SettingsStep, settingMark, World.view]

/-- The step lemma of the settings. -/
theorem act_settings {frame : Frame} (acted : act w frame χ = some outcome) :
    SettingsStep w frame outcome := by
  cases frame with
  | hold frame => exact holdAct_settings acted
  | release frame => exact releaseAct_settings acted
  | claim frame => exact claimAct_settings acted
  | stream frame => exact streamAct_settings acted
  | push frame => exact pushAct_settings acted
  | pull frame => exact pullAct_settings acted
  | set frame => exact setAct_settings acted
  | scan frame => exact scanAct_settings acted
  | stats frame => exact statsAct_settings acted

end Groups

theorem settingMark_covers : settingMark.Covers machine World.view := by
  intro w frame χ outcome acted unmarked
  have step : SettingsStep w frame outcome := act_settings acted
  rw [SettingsStep, unmarked] at step
  exact step

/-- What a call makes of the settings, if it is not refused; the target of a push
is none of them. -/
def SetFrame.through (v : TunerView) (frame : SetFrame) : TunerView :=
  let after (write : SettingWrite) : TunerView := { v with selection := v.selection.write write }
  match frame with
  | .channelSet value =>
      if value = noneText then after .reset
      else
        match channelRequest v.selection.channelmap value with
        | some request => after (.raw request.delivery request.value.freq)
        | none => v
  | .channelNone => after .reset
  | .channelClaim request | .channelQueue request | .channelSelect request _ =>
      after (.raw request.delivery request.value.freq)
  | .channelmapSet value | .channelmapReset value => after (.channelmap value)
  | .vchannelSet key | .vchannelBind key =>
      { v with
        selection := (v.selection.write (.bound (v.db.deref key) dvbProgramDefault)).write
          (.filter []) }
  | .vchannelStatus _ => after (.filter [])
  | .programSet program => after (.program program)
  | .filterSet value =>
      after (.filter (if value = noneText ∨ value = [] then [] else truncate 256 value))
  | _ => v

/-- The value of a SET means something: it can be read, and there is what it
names. -/
def SetFrame.valid (v : TunerView) : SetFrame → Bool
  | .targetSet value => value = noneText ∨ (parseUdpTarget value).isSome
  | .channelSet value => value = noneText ∨ (channelRequest v.selection.channelmap value).isSome
  | .channelmapSet value => channelmapSupported value
  | .vchannelSet key => (v.db.find? key).isSome
  | .filterSet value => (value = noneText ∨ value = []) ∨ (pidFilterParse value).isSome
  | _ => true

/-- The messages that a call can be refused with. -/
def SetFrame.refusals (v : TunerView) : SetFrame → List CStr
  | .targetSet value => if (SetFrame.targetSet value).valid v then [] else [badTarget]
  | .channelSet value =>
      if value = noneText then []
      else if (SetFrame.channelSet value).valid v then [busyStreaming, busyScanning]
      else [badChannelValue]
  | .channelClaim _ | .channelQueue _ => [busyStreaming, busyScanning]
  | .channelmapSet value =>
      if (SetFrame.channelmapSet value).valid v then [] else [unknownChannelMap]
  | .vchannelSet key => if (SetFrame.vchannelSet key).valid v then [] else [channelNotFound]
  | .filterSet value => if (SetFrame.filterSet value).valid v then [] else [badFilter]
  | _ => []

/-- A SET of a client, which has not begun. -/
def SetFrame.isRequest : SetFrame → Bool
  | .targetSet _ | .channelSet _ | .channelmapSet _ | .vchannelSet _ | .programSet _
  | .filterSet _ => true
  | _ => false

/-- A call from which it is still open whether the SET will be refused. -/
def SetFrame.deciding : SetFrame → Bool
  | .channelClaim _ | .channelQueue _ => true
  | frame => frame.isRequest

/-- A call of a SET that is not going to be refused. -/
def Frame.decided : Frame → Bool
  | .hold _ | .release _ => true
  | .set (.dbAdd _) => false
  | .set frame => !frame.deciding
  | _ => false

def Frame.through (v : TunerView) : Frame → TunerView
  | .set frame => frame.through v
  | _ => v

/-- How far a SET has come that began with `request` at `start`: its view, its
calls and its marks. -/
inductive SetProgress (request : SetFrame) (start : TunerView) :
    TunerView → List Frame → List SettingMark → Prop
  | deciding {frame : SetFrame} (deciding : frame.deciding = true)
      (same : frame.through start = request.through start)
      (valid : frame.valid start = request.valid start)
      (fewer : frame.refusals start ⊆ request.refusals start) :
      SetProgress request start start [.set frame] []
  | decided {v : TunerView} {stack : List Frame} {marks : List SettingMark}
      (valid : request.valid start = true) (decided : ∀ frame ∈ stack, frame.decided = true)
      (wrote : ∀ mark ∈ marks, ∃ write, mark = .wrote write)
      (rest : stack.foldl Frame.through v = request.through start) :
      SetProgress request start v stack marks
  | refused {msg : CStr} (listed : msg ∈ request.refusals start) :
      SetProgress request start start [] [.refused msg]

/-- A call that has nothing to do with settings. -/
def Frame.plain : Frame → Bool
  | .hold _ | .release _ => true
  | _ => false

theorem decided_of_plain {frame : Frame} (plain : frame.plain = true) : frame.decided = true := by
  cases frame <;> first | rfl | cases plain

theorem foldl_through_plain {frames : List Frame} (plain : frames.all Frame.plain = true)
    (v : TunerView) : frames.foldl Frame.through v = v := by
  induction frames with
  | nil => rfl
  | cons frame frames ih =>
      rw [List.all_cons, Bool.and_eq_true] at plain
      have same : frame.through v = v := by
        cases frame <;> first | rfl | cases plain.1
      rw [List.foldl_cons, same, ih plain.2]

/-- An action of a SET that is not going to be refused. -/
structure DecidedStep (w : World) (frame : Frame) (outcome : Outcome) : Prop where
  decided : ∀ next ∈ outcome.frames, next.decided = true
  mark : ∀ mark ∈ settingMark w frame, ∃ write, mark = .wrote write
  rest : outcome.frames.foldl Frame.through outcome.shared.view = frame.through w.view

/-- An action of a SET that may still be refused. -/
inductive DecidingStep (w : World) (frame : SetFrame) (outcome : Outcome) : Prop
  | deciding (next : SetFrame) (left : outcome.frames = [.set next])
      (deciding : next.deciding = true) (same : next.through w.view = frame.through w.view)
      (valid : next.valid w.view = frame.valid w.view)
      (fewer : next.refusals w.view ⊆ frame.refusals w.view) (mark : settingMark w frame = none)
  | decided (valid : frame.valid w.view = true) (step : DecidedStep w frame outcome)
  | refused (msg : CStr) (listed : msg ∈ frame.refusals w.view) (left : outcome.frames = [])
      (mark : settingMark w frame = some (.refused msg))

section Steps

variable {w : World} {χ : Choice} {outcome : Outcome}

/-- Calls that have nothing to do with settings leave only such calls. -/
theorem DecidedStep.plain {frame : Frame} (plain : outcome.frames.all Frame.plain = true)
    (unmarked : settingMark w frame = none) (same : outcome.shared.view = w.view)
    (own : frame.through w.view = w.view) : DecidedStep w frame outcome where
  decided next member := decided_of_plain (List.all_eq_true.mp plain next member)
  mark := by simp [unmarked]
  rest := by rw [foldl_through_plain plain, same, own]

theorem holdAct_decided {frame : HoldFrame} (acted : holdAct w χ frame = some outcome) :
    DecidedStep w frame outcome := by
  have step : SettingsStep w frame outcome := holdAct_settings acted
  apply DecidedStep.plain _ rfl step rfl
  revert acted
  fun_cases holdAct w χ frame <;> intro acted <;> cases acted <;> simp [Frame.plain]

theorem releaseAct_decided {frame : ReleaseFrame} (acted : releaseAct w χ frame = some outcome) :
    DecidedStep w frame outcome := by
  have step : SettingsStep w frame outcome := releaseAct_settings acted
  apply DecidedStep.plain _ rfl step rfl
  revert acted
  fun_cases releaseAct w χ frame <;> intro acted <;> cases acted <;> simp [Frame.plain]

theorem setAct_decided {frame : SetFrame} (decided : Frame.decided frame = true)
    (acted : setAct w χ frame = some outcome) : DecidedStep w frame outcome := by
  revert acted
  fun_cases setAct w χ frame <;> intro acted <;> cases acted <;>
    first
    | exact absurd decided Bool.false_ne_true
    | constructor <;>
        simp [settingMark, World.view, Frame.decided, Frame.through, SetFrame.through,
          SetFrame.deciding, SetFrame.isRequest, Selection.write, Selection.deselected]

theorem setAct_deciding {frame : SetFrame} (deciding : frame.deciding = true)
    (acted : setAct w χ frame = some outcome) : DecidingStep w frame outcome := by
  revert acted
  fun_cases setAct w χ frame <;> intro acted <;> cases acted <;>
    try exact absurd deciding Bool.false_ne_true
  case case26 value notNone request accepted =>
    apply DecidingStep.deciding (.channelClaim request) rfl rfl
    · simp [SetFrame.through, World.view, notNone, accepted]
    · simp [SetFrame.valid, World.view, accepted]
    · simp [SetFrame.refusals, SetFrame.valid, World.view, notNone, accepted]
    · simp [settingMark, notNone, accepted]
  case case29 request _ =>
    exact .deciding (.channelQueue request) rfl rfl rfl rfl (fun _ listed => listed) rfl
  case case6 value notNone unparsed =>
    exact .refused badTarget (by simp [SetFrame.refusals, SetFrame.valid, notNone, unparsed]) rfl
      (by simp [settingMark, notNone, unparsed])
  case case27 value notNone unparsed =>
    exact .refused badChannelValue
      (by simp [SetFrame.refusals, SetFrame.valid, World.view, notNone, unparsed]) rfl
      (by simp [settingMark, notNone, unparsed])
  case case32 request busy =>
    refine .refused (if w.tuner.activeStream.isSome then busyStreaming else busyScanning) ?_ rfl
      (by simp only [settingMark, if_neg busy])
    rw [SetFrame.refusals]
    split <;> simp
  case case41 value unsupported =>
    exact .refused unknownChannelMap (by simp [SetFrame.refusals, SetFrame.valid, unsupported]) rfl
      (by simp [settingMark, unsupported])
  case case44 key missing =>
    exact .refused channelNotFound
      (by simp [SetFrame.refusals, SetFrame.valid, World.view, missing]) rfl
      (by simp [settingMark, missing])
  case case51 value given unparsed =>
    exact .refused badFilter (by simp [SetFrame.refusals, SetFrame.valid, given, unparsed]) rfl
      (by simp [settingMark, given, unparsed])
  all_goals
    refine DecidingStep.decided (by simp_all [SetFrame.valid, World.view]) ?_
    constructor <;>
      simp_all [settingMark, World.view, Frame.decided, Frame.through, SetFrame.through,
        SetFrame.deciding, SetFrame.isRequest, Selection.write, Selection.deselected]

end Steps

/-- Every action of a SET brings it further. -/
theorem SetProgress.act {request : SetFrame} {start : TunerView} {w : World} {frame : Frame}
    {rest : List Frame} {χ : Choice} {outcome : Outcome} {marks : List SettingMark}
    (progress : SetProgress request start w.view (frame :: rest) marks)
    (acted : act w frame χ = some outcome) :
    SetProgress request start outcome.shared.view (outcome.frames ++ rest)
      (marks ++ (settingMark w frame).toList) := by
  have settings : SettingsStep w frame outcome := act_settings acted
  have decided {v : TunerView} (step : DecidedStep w frame outcome)
      (others : ∀ other ∈ rest, other.decided = true)
      (wrote : ∀ mark ∈ marks, ∃ write, mark = .wrote write)
      (left : rest.foldl Frame.through (frame.through w.view) = v)
      (same : v = request.through start) (valid : request.valid start = true) :
      SetProgress request start outcome.shared.view (outcome.frames ++ rest)
        (marks ++ (settingMark w frame).toList) := by
    refine .decided valid ?_ ?_ ?_
    · exact List.forall_mem_append.mpr ⟨step.decided, others⟩
    · refine List.forall_mem_append.mpr ⟨wrote, fun mark member => step.mark mark ?_⟩
      exact Option.mem_toList.mp member
    · rw [List.foldl_append, step.rest, left, same]
  generalize stack : frame :: rest = calls at progress
  generalize view : w.view = v at progress
  cases progress with
  | @deciding frame deciding same valid fewer =>
      cases stack
      subst view
      cases setAct_deciding deciding acted with
      | deciding next left nextDeciding nextSame nextValid nextFewer mark =>
          have unseen : outcome.shared.view = w.view := by
            rw [SettingsStep, mark] at settings
            exact settings
          rw [left, mark, unseen]
          exact .deciding nextDeciding (nextSame.trans same) (nextValid.trans valid)
            (List.Subset.trans nextFewer fewer)
      | decided fits step => exact decided step (by simp) (by simp) rfl same (valid ▸ fits)
      | refused msg listed left mark =>
          have unseen : outcome.shared.view = w.view := by
            rw [SettingsStep, mark] at settings
            exact settings
          rw [left, mark, unseen]
          exact .refused (fewer listed)
  | decided valid all wrote left =>
      subst stack view
      obtain ⟨first, others⟩ := List.forall_mem_cons.mp all
      refine decided ?_ others wrote rfl left valid
      cases frame with
      | hold frame => exact holdAct_decided acted
      | release frame => exact releaseAct_decided acted
      | set frame => exact setAct_decided first acted
      | _ => cases first
  | refused listed => cases stack

/-- A SET while no other thread writes settings or adds channels: once it has
returned, it has made of the settings what it is for, or it has been refused and
has changed nothing. -/
theorem set_returned {guard : Guard World Frame Choice} {first last : Config World Frame}
    {events : Schedule} {thread : Nat} {request : SetFrame} (isRequest : request.isRequest = true)
    (begins : first.threads[thread]? = some [.set request])
    (ran : machine.run guard first events = some last)
    (alone : Alone thread (machine.trail guard settingMark first events))
    (returned : last.threads[thread]? = some []) :
    let marks := ownMarks (machine.trail guard settingMark first events)
    (request.valid first.shared.view = true ∧
        last.shared.view = request.through first.shared.view ∧
        ∀ mark ∈ marks, ∃ write, mark = .wrote write) ∨
      (last.shared.view = first.shared.view ∧
        ∃ msg ∈ request.refusals first.shared.view, marks = [.refused msg]) := by
  have deciding : request.deciding = true := by
    cases request <;> first | rfl | cases isRequest
  obtain ⟨stack, there, progress⟩ := Machine.alone_invariant
    (SetProgress request first.shared.view) settingMark_covers begins
    (.deciding deciding rfl rfl (fun _ listed => listed))
    (fun _ _ _ _ _ _ progress acted => progress.act acted) ran alone
  rw [returned] at there
  cases there
  generalize ownMarks (machine.trail guard settingMark first events) = marks at progress
  generalize view : last.shared.view = v at progress
  cases progress with
  | decided valid _ wrote left => exact .inl ⟨valid, left, wrote⟩
  | refused listed => exact .inr ⟨rfl, _, listed, rfl⟩

end HdhrEmu
