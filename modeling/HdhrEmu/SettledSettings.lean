import HdhrEmu.GetsetServer
import HdhrEmu.SettingWrites

/-!
# Settings that come about in a run

Not every record is the settings of a tuner.  The values of the SETs are
checked before anything is written, so the channel map is one of those there
are, and the filter can be parsed again.  The channel text shows what is tuned.
-/

namespace HdhrEmu

open CString Interleaving

/-- What every write of the settings keeps. -/
structure Settled (selection : Selection) : Prop where
  channelmap : channelmapSupported selection.channelmap = true
  filter : selection.filterOverride = [] ∨ (pidFilterParse selection.filterOverride).isSome ∧
    selection.filterOverride.length < getsetValueSize
  resolved : selection.vchResolved = true → selection.channel =
    channelText selection.tunedDelivery selection.tunedFrequencyHz
  raw : selection.vchResolved = false →
    selection.channel = noneText ∧ selection.tunedFrequencyHz = 0 ∨
      selection.tunedFrequencyHz ≠ 0 ∧
        ∃ delivery, selection.channel = channelText delivery selection.tunedFrequencyHz

/-- The value of a write was checked. -/
def SettingWrite.Checked : SettingWrite → Prop
  | .channelmap value => channelmapSupported value = true
  | .raw _ freq => freq ≠ 0
  | .filter text => text = [] ∨ (pidFilterParse text).isSome ∧ text.length < getsetValueSize
  | _ => True

theorem settled_init : Settled Tuner.init.toSelection where
  channelmap := by decide
  filter := .inl rfl
  resolved := by simp [Tuner.init]
  raw _ := .inl ⟨rfl, rfl⟩

theorem channelmapSupported_iff {value : CStr} :
    channelmapSupported value = true ↔ value ∈ supportedMaps := by
  simp [channelmapSupported, channelMapFind, supportedMaps, List.find?_isSome]

/-- No name of a channel map is cut when it is stored. -/
theorem truncate_channelmap {value : CStr} (supported : channelmapSupported value = true) :
    truncate 16 value = value := by
  have whole : ∀ name ∈ supportedMaps, truncate 16 name = name := by decide
  exact whole value (channelmapSupported_iff.mp supported)

namespace Settled

variable {selection : Selection}

theorem deselected (settled : Settled selection) : Settled selection.deselected where
  channelmap := settled.channelmap
  filter := .inl rfl
  resolved := by simp [Selection.deselected]
  raw _ := .inl ⟨rfl, rfl⟩

/-- A write of what was checked. -/
theorem write (settled : Settled selection) {write : SettingWrite} (checked : write.Checked) :
    Settled (selection.write write) := by
  cases write with
  | reset => exact settled.deselected
  | channelmap value =>
      exact { settled.deselected with
        channelmap := by
          rw [Selection.write, truncate_channelmap checked]
          exact checked }
  | raw delivery freq =>
      exact { settled with
        filter := .inl rfl
        resolved := by simp [Selection.write]
        raw := fun _ => .inr ⟨checked, delivery, rfl⟩ }
  | bound ch programOverride =>
      exact { settled with
        resolved := fun _ => rfl
        raw := by simp [Selection.write] }
  | released => exact { settled.deselected with }
  | program program => exact { settled with filter := .inl rfl }
  | filter text => exact { settled with filter := checked }
  | target => exact settled

end Settled

/-- The value of a `filter` SET fits into the packet that it came in. -/
def filtersFit : Guard World Frame Choice := fun _ frame _ _ =>
  match frame with
  | .set (.filterSet value) => decide (value.length < getsetValueSize)
  | _ => true

/-- A call whose values were checked by the calls before it. -/
@[simp]
def Frame.isChecked : Frame → Bool
  | .set (.channelClaim request) | .set (.channelQueue request)
  | .set (.channelSelect request _) => request.value.freq ≠ 0
  | .set (.channelmapReset value) => channelmapSupported value
  | _ => true

def checked (frames : List Frame) : Bool :=
  frames.all Frame.isChecked

@[simp]
theorem checked_nil : checked [] = true :=
  rfl

@[simp]
theorem checked_cons (frame : Frame) (frames : List Frame) :
    checked (frame :: frames) = (frame.isChecked && checked frames) :=
  rfl

@[simp]
theorem checked_append (first second : List Frame) :
    checked (first ++ second) = (checked first && checked second) :=
  List.all_append

@[simp]
theorem checked_stopping (held : Option Fd) (frames : List Frame) :
    checked (stopping held frames) = checked frames := by
  cases held <;> rfl

@[simp]
theorem checked_granted (granted : Granted) : checked granted.frames = true := by
  rcases granted with ⟨_ | _, _⟩ | _ <;> rfl

@[simp]
theorem checked_claimTimedOut (db : ChannelDb) (who : Claimant) :
    checked (who.claimTimedOut db) = true := by
  rcases who with ⟨_ | _, _⟩ | _ <;> rfl

@[simp]
theorem checked_openFailed (who : Streamer) : checked who.openFailed = true := by
  cases who <;> rfl

@[simp]
theorem checked_opened (who : Streamer) (stream : DvbStream) :
    checked (who.opened stream) = true := by
  cases who <;> rfl

section Groups

variable {w : World} {χ : Choice} {outcome : Outcome}

theorem holdAct_checked {frame : HoldFrame} (acted : holdAct w χ frame = some outcome) :
    checked outcome.next = true := by
  revert acted
  fun_cases holdAct w χ frame <;> intro acted <;> cases acted <;> simp [Outcome.next]

theorem releaseAct_checked {frame : ReleaseFrame} (acted : releaseAct w χ frame = some outcome) :
    checked outcome.next = true := by
  revert acted
  fun_cases releaseAct w χ frame <;> intro acted <;> cases acted <;> simp [Outcome.next]

theorem claimAct_checked {frame : ClaimFrame} (acted : claimAct w χ frame = some outcome) :
    checked outcome.next = true := by
  revert acted
  fun_cases claimAct w χ frame <;> intro acted <;> cases acted <;> simp [Outcome.next]

theorem streamAct_checked {frame : StreamFrame} (acted : streamAct w χ frame = some outcome) :
    checked outcome.next = true := by
  revert acted
  fun_cases streamAct w χ frame <;> intro acted <;> cases acted <;> simp [Outcome.next]

theorem pushAct_checked {frame : PushFrame} (acted : pushAct w χ frame = some outcome) :
    checked outcome.next = true := by
  revert acted
  fun_cases pushAct w χ frame <;> intro acted <;> cases acted <;> simp [Outcome.next]

theorem pullAct_checked {frame : PullFrame} (acted : pullAct w χ frame = some outcome) :
    checked outcome.next = true := by
  revert acted
  fun_cases pullAct w χ frame <;> intro acted <;> cases acted <;>
    simp [Outcome.next, tryClaim, Streamer.claimWait]

/-- A channel is parsed and a channel map is looked up at the beginning. -/
theorem setAct_checked {frame : SetFrame} (earlier : (Frame.set frame).isChecked = true)
    (acted : setAct w χ frame = some outcome) : checked outcome.next = true := by
  revert acted
  fun_cases setAct w χ frame <;> intro acted <;> cases acted
  case case26.refl value given request parsed =>
    obtain ⟨parsed, accepted, rfl⟩ := Option.map_eq_some_iff.mp parsed
    simp [Outcome.next, parseChannelValue_freq_ne_zero accepted]
  all_goals
    simp_all [Outcome.next]

theorem scanAct_checked {frame : ScanFrame} (acted : scanAct w χ frame = some outcome) :
    checked outcome.next = true := by
  revert acted
  fun_cases scanAct w χ frame <;> intro acted <;> cases acted <;> simp [Outcome.next]

theorem statsAct_checked {frame : StatsFrame} (acted : statsAct w χ frame = some outcome) :
    checked outcome.next = true := by
  revert acted
  fun_cases statsAct w χ frame <;> intro acted <;> cases acted <;> simp [Outcome.next]

theorem act_checked {frame : Frame} (earlier : frame.isChecked = true)
    (acted : act w frame χ = some outcome) : checked outcome.next = true := by
  cases frame with
  | hold frame => exact holdAct_checked acted
  | release frame => exact releaseAct_checked acted
  | claim frame => exact claimAct_checked acted
  | stream frame => exact streamAct_checked acted
  | push frame => exact pushAct_checked acted
  | pull frame => exact pullAct_checked acted
  | set frame => exact setAct_checked earlier acted
  | scan frame => exact scanAct_checked acted
  | stats frame => exact statsAct_checked acted

end Groups

/-- A call that was checked writes what was checked. -/
theorem settingMark_checked {w : World} {frame : Frame} {others : List Frame} {χ : Choice}
    {write : SettingWrite} (fits : filtersFit w frame others χ = true)
    (earlier : frame.isChecked = true) (marked : settingMark w frame = some (.wrote write)) :
    write.Checked := by
  revert marked
  fun_cases settingMark w frame <;> intro marked <;> cases marked
  case case24.refl value given parsed =>
    have short : value.length < getsetValueSize := of_decide_eq_true fits
    have whole : truncate 256 value = value := List.take_of_length_le (by
      have size : getsetValueSize = 192 := rfl
      omega)
    rw [SettingWrite.Checked, whole]
    exact .inr ⟨parsed, short⟩
  all_goals
    simp_all [SettingWrite.Checked]

/-- The settings of a tuner at any time after the start. -/
theorem settled_of_reachable {db : ChannelDb} {config : Config World Frame}
    (reachable : machine.Reachable filtersFit (start db) config) :
    Settled config.shared.tuner.toSelection := by
  have arriving : ∀ frame, arrives frame = true → frame.isChecked = true :=
    forall_arrives.mpr ⟨fun _ => rfl, fun _ => rfl, fun _ => rfl, fun _ => rfl, fun _ => rfl,
      fun _ => rfl, fun _ _ => rfl, rfl, fun _ => rfl, fun _ _ _ => rfl, rfl⟩
  refine (reachable.forall_frames (fun _ _ => True) (fun w => Settled w.tuner.toSelection)
    (fun _ frame => frame.isChecked = true) (fun _ _ => trivial) settled_init ?_
    (fun _ frame _ arrived => arriving frame arrived) ?_).1
  · intro frame member
    simp [start, Config.frames] at member
  · intro w frame others χ outcome _ settled earlier checked_ fits acted
    refine ⟨?_, List.all_eq_true.mp (act_checked earlier acted), checked_⟩
    have step : SettingsStep w frame outcome := act_settings acted
    rw [SettingsStep] at step
    split at step
    · rename_i write marked
      rw [show outcome.shared.tuner.toSelection = _ from congrArg TunerView.selection step]
      exact settled.write (settingMark_checked fits earlier marked)
    · rw [step]
      exact settled
    · rw [show outcome.shared.tuner.toSelection = _ from congrArg TunerView.selection step]
      exact settled

end HdhrEmu
