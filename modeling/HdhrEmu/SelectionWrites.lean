import HdhrEmu.ClaimHolder
import HdhrEmu.Lib.Trail

/-!
# Who wrote the selection last

The channel text, the frequency and the virtual channel of a tuner are written
by binds, by raw tunes and by resets, in whatever thread these run.  The trail
of the writes decides what is selected at the end of a run.
-/

namespace HdhrEmu

open CString Interleaving

/-- What a tuner is set to, as far as every write sets it. -/
structure Selected where
  channel : CStr
  frequency : UInt32
  virtualChannel : Option ChannelKey
  deriving DecidableEq

/-- Nothing is selected. -/
def Selected.idle : Selected :=
  ⟨noneText, 0, none⟩

def Selection.selected (selection : Selection) : Selected :=
  ⟨selection.channel, selection.tunedFrequencyHz,
    bif selection.vchResolved then some ⟨selection.vchMajor, selection.vchMinor⟩ else none⟩

/-- The condition of `release_http_pull`: the selection still looks like the
channel of the pull. -/
def Selection.StillBound (selection : Selection) (ch : DvbChannel) : Prop :=
  selection.vchResolved ∧ selection.vchMajor = ch.major ∧ selection.vchMinor = ch.minor ∧
    selection.tunedFrequencyHz = ch.frequencyHz

instance (selection : Selection) (ch : DvbChannel) : Decidable (selection.StillBound ch) :=
  inferInstanceAs (Decidable (_ ∧ _))

inductive SelectionWrite
  | reset
  | raw (delivery : DeliverySystem) (freq : UInt32)
  | bound (ch : DvbChannel)
  deriving DecidableEq

def SelectionWrite.selected : SelectionWrite → Selected
  | .reset => .idle
  | .raw delivery freq => ⟨channelText delivery freq, freq, none⟩
  | .bound ch => ⟨channelText ch.delivery ch.frequencyHz, ch.frequencyHz, some ch.key⟩

/-- What the channel text of a write names. -/
def SelectionWrite.tuning : SelectionWrite → Option Tuning
  | .reset => none
  | .raw delivery freq => some ⟨freq, delivery⟩
  | .bound ch => some ⟨ch.frequencyHz, ch.delivery⟩

/-- The write that an action is. -/
def selectionWrite : Marking World Frame SelectionWrite := fun w frame =>
  match frame with
  | .push (.pushBind ctx _) => some (.bound ctx.channel)
  | .pull (.pullBind key _) => some (.bound (w.db.deref key))
  | .pull (.releaseHttpPull key) =>
      if w.tuner.StillBound (w.db.deref key) then some .reset else none
  | .set (.vchannelBind key) => some (.bound (w.db.deref key))
  | .set .channelNone => some .reset
  | .set (.channelmapReset _) => some .reset
  | .set (.channelQueue request) =>
      if w.tuner.activeStream = none ∧ w.tuner.scanWorkerActive = true then
        some (.raw request.delivery request.value.freq)
      else none
  | .set (.channelSelect request _) => some (.raw request.delivery request.value.freq)
  | _ => none

theorem channelText_eq_iff {delivery delivery' : DeliverySystem} {freq freq' : UInt32} :
    channelText delivery freq = channelText delivery' freq' ↔ delivery = delivery' ∧ freq = freq' := by
  constructor
  · exact channelText_injective
  · rintro ⟨rfl, rfl⟩
    rfl

theorem SelectionWrite.channel_eq_iff {write : SelectionWrite} {tuning : Tuning} :
    write.selected.channel = channelText tuning.delivery tuning.freq ↔
      write.tuning = some tuning := by
  obtain ⟨freq, delivery⟩ := tuning
  cases write with
  | reset => exact iff_of_false (channelText_ne_none _ _).symm (by simp [SelectionWrite.tuning])
  | raw delivery' freq' => simp [selected, SelectionWrite.tuning, channelText_eq_iff, and_comm]
  | bound ch => simp [selected, SelectionWrite.tuning, channelText_eq_iff, and_comm]

/-- The condition speaks about what is selected. -/
theorem Selection.stillBound_iff {selection : Selection} {ch : DvbChannel} :
    selection.StillBound ch ↔
      selection.selected.virtualChannel = some ch.key ∧
        selection.selected.frequency = ch.frequencyHz := by
  simp only [StillBound, selected, DvbChannel.key]
  cases selection.vchResolved <;> simp [and_assoc]

namespace Tuner

variable (t : Tuner)

theorem pullReset_of_stillBound {ch : DvbChannel} (bound : t.StillBound ch) :
    (t.pullReset ch).selected = .idle := by
  unfold pullReset
  rw [if_pos (show _ ∧ _ from bound)]
  rfl

theorem pullReset_of_not_stillBound {ch : DvbChannel} (lost : ¬ t.StillBound ch) :
    t.pullReset ch = t :=
  if_neg lost

end Tuner

/-- What is selected after an action is what it wrote, or what was selected before. -/
def WritesSelection (w : World) (frame : Frame) (outcome : Outcome) : Prop :=
  outcome.shared.tuner.selected =
    ((selectionWrite w frame).map SelectionWrite.selected).getD w.tuner.selected

attribute [local simp] WritesSelection selectionWrite

variable {w : World} {χ : Choice} {outcome : Outcome}

theorem holdAct_writes {frame : HoldFrame} :
    holdAct w χ frame = some outcome → WritesSelection w (.hold frame) outcome := by
  fun_cases holdAct w χ frame <;> intro acted <;> cases acted <;>
    simp [WritesSelection, selectionWrite]

theorem releaseAct_writes {frame : ReleaseFrame} :
    releaseAct w χ frame = some outcome → WritesSelection w (.release frame) outcome := by
  fun_cases releaseAct w χ frame <;> intro acted <;> cases acted <;>
    simp [WritesSelection, selectionWrite]

theorem claimAct_writes {frame : ClaimFrame} :
    claimAct w χ frame = some outcome → WritesSelection w (.claim frame) outcome := by
  fun_cases claimAct w χ frame <;> intro acted <;> cases acted <;>
    simp [WritesSelection, selectionWrite]

theorem streamAct_writes {frame : StreamFrame} :
    streamAct w χ frame = some outcome → WritesSelection w (.stream frame) outcome := by
  fun_cases streamAct w χ frame <;> intro acted <;> cases acted <;>
    simp [WritesSelection, selectionWrite]

theorem pushAct_writes {frame : PushFrame} :
    pushAct w χ frame = some outcome → WritesSelection w (.push frame) outcome := by
  fun_cases pushAct w χ frame <;> intro acted <;> cases acted <;>
    simp [WritesSelection, selectionWrite, Selection.selected, SelectionWrite.selected,
      DvbChannel.key]

theorem pullAct_writes {frame : PullFrame} :
    pullAct w χ frame = some outcome → WritesSelection w (.pull frame) outcome := by
  fun_cases pullAct w χ frame <;> intro acted <;> cases acted
  case case12 key =>
    by_cases bound : w.tuner.StillBound (w.db.deref key)
    · simp [WritesSelection, selectionWrite, bound, w.tuner.pullReset_of_stillBound bound,
        SelectionWrite.selected]
    · simp [WritesSelection, selectionWrite, bound, w.tuner.pullReset_of_not_stillBound bound]
  all_goals
    simp [WritesSelection, selectionWrite, Selection.selected, SelectionWrite.selected,
      DvbChannel.key]

theorem setAct_writes {frame : SetFrame} :
    setAct w χ frame = some outcome → WritesSelection w (.set frame) outcome := by
  fun_cases setAct w χ frame <;> intro acted <;> cases acted
  case case32 request refused => simp [WritesSelection, selectionWrite, refused]
  all_goals
    simp_all [WritesSelection, selectionWrite, Selection.selected, SelectionWrite.selected,
      Selected.idle, DvbChannel.key]

theorem scanAct_writes {frame : ScanFrame} :
    scanAct w χ frame = some outcome → WritesSelection w (.scan frame) outcome := by
  fun_cases scanAct w χ frame <;> intro acted <;> cases acted <;>
    simp [WritesSelection, selectionWrite]

theorem statsAct_writes {frame : StatsFrame} :
    statsAct w χ frame = some outcome → WritesSelection w (.stats frame) outcome := by
  fun_cases statsAct w χ frame <;> intro acted <;> cases acted <;>
    simp [WritesSelection, selectionWrite]

/-- The step lemma of the selection. -/
theorem act_writes {frame : Frame} (acted : act w frame χ = some outcome) :
    WritesSelection w frame outcome := by
  cases frame with
  | hold frame => exact holdAct_writes acted
  | release frame => exact releaseAct_writes acted
  | claim frame => exact claimAct_writes acted
  | stream frame => exact streamAct_writes acted
  | push frame => exact pushAct_writes acted
  | pull frame => exact pullAct_writes acted
  | set frame => exact setAct_writes acted
  | scan frame => exact scanAct_writes acted
  | stats frame => exact statsAct_writes acted

/-- The newest write of a trail. -/
def lastWrite (trail : List (Nat × SelectionWrite)) : Option SelectionWrite :=
  trail.getLast?.map Prod.snd

/-- What a run leaves selected is what its last write selected. -/
theorem selected_of_run {guard : Guard World Frame Choice} {first last : Config World Frame}
    {events : Schedule} (ran : machine.run guard first events = some last) :
    last.shared.tuner.selected =
      ((lastWrite (machine.trail guard selectionWrite first events)).map
        SelectionWrite.selected).getD first.shared.tuner.selected := by
  apply Machine.trail_invariant
    (fun config past => config.shared.tuner.selected =
      ((lastWrite past).map SelectionWrite.selected).getD first.shared.tuner.selected) ran rfl
  · intro config frame past held _
    exact held
  · intro config thread frame rest choice outcome past held _ acted
    have written : WritesSelection config.shared frame outcome := act_writes acted
    change outcome.shared.tuner.selected = _
    rw [written]
    cases selectionWrite config.shared frame with
    | none => simpa using held
    | some write => simp [lastWrite]

/-- The configuration a schedule leads to. -/
def configAfter (db : ChannelDb) (schedule : Schedule) : Interleaving.Config World Frame :=
  (machine.run .all (start db) schedule).getD (start db)

end HdhrEmu
