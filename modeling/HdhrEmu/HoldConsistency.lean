import HdhrEmu.HeldRefresher
import HdhrEmu.ScanQueue

/-!
# The selection and the hold

While nothing else uses a tuner, the frequency that is selected is held open,
and nothing is held when none is selected.  The selection and the hold are
written in different critical sections, by calls that hand the tuning of a hold
on in local variables, so the two agree only when no selection is written while
a hold is on its way, and when a call that gives up leaves the hold to another.
-/

namespace HdhrEmu

open Interleaving Interleaving.Machine

/-- A hold for a tuning of its own is being opened or installed. -/
@[simp]
def Frame.bringsHold : Frame → Bool
  | .hold (.tunerOpenHold _) | .hold (.holdReopen _ _) | .hold (.holdTune _ _)
  | .hold (.installHoldFd _ _) | .hold (.tunerOpenHoldFromFd _) => true
  | _ => false

/-- A `vchannel` SET binds its channel. -/
@[simp]
def Frame.bindsVchannel : Frame → Bool
  | .set (.vchannelBind _) => true
  | _ => false

/-- A `vchannel` SET that has bound its channel and has not opened its hold. -/
@[simp]
def Frame.bound : Frame → Bool
  | .set (.vchannelStatus _) | .set (.vchannelHold _) => true
  | _ => false

/-- The reset of the selection that follows `tuner_close_hold`. -/
@[simp]
def Frame.resetsSelection : Frame → Bool
  | .set .channelNone | .set (.channelmapReset _) => true
  | _ => false

/-- The call takes away whatever is held before it opens its hold. -/
def Frame.replacesHold (frame : Frame) : Bool :=
  frame.bound || match frame with
    | .hold (.tunerOpenHold _) => true
    | _ => false

/-- The call is going to open a hold, or to reset the selection. -/
def Frame.settlesHold (frame : Frame) : Bool :=
  frame.bringsHold || frame.bound || frame.resetsSelection

/-- The frequency and the delivery system that are selected after the action. -/
def Frame.selects (w : World) : Frame → Tuning
  | .set (.channelSelect request _) => ⟨request.value.freq, w.tuner.tunedDelivery⟩
  | .set (.channelQueue request) =>
      if w.tuner.activeStream = none ∧ w.tuner.scanWorkerActive = true then
        ⟨request.value.freq, w.tuner.tunedDelivery⟩
      else w.tuner.tuning
  | .set .channelNone | .set (.channelmapReset _) => ⟨0, w.tuner.tunedDelivery⟩
  | .set (.vchannelBind key) | .pull (.pullBind key _) =>
      ⟨(w.db.deref key).frequencyHz, (w.db.deref key).delivery⟩
  | .push (.pushBind ctx _) => ⟨ctx.channel.frequencyHz, ctx.channel.delivery⟩
  | .pull (.releaseHttpPull key) => (w.tuner.pullReset (w.db.deref key)).tuning
  | _ => w.tuner.tuning

/-- The calls of `dvb_frontend_open` on a closed node, and of the tunes. -/
def Frame.usesFrontend (w : World) : Frame → Bool
  | .hold (.holdReopen [] _) | .scan (.scanOpen _) | .scan .startupOpen
  | .stream (.dvbStreamOpen _ none) | .stream (.streamReopen _ _) => w.node.opener.isNone
  | .hold (.holdTune _ _) | .scan (.scanTune _) | .scan (.startupTune _ _)
  | .stream (.streamTune _ _ _ _) | .stream (.streamRetune _ _ _) => true
  | _ => false

/-- What is the same for every action: which selection it leaves, and what it
leaves behind when it takes a hold, gives one up, releases the tuner or
selects something else. -/
structure HoldStep (w : World) (frame : Frame) (outcome : Outcome) : Prop where
  selected : outcome.shared.tuner.tuning = frame.selects w
  held : outcome.shared.tuner.heldFd = w.tuner.heldFd ∨
    outcome.shared.tuner.heldFd = none ∧
      (outcome.shared.tuner.busy = true ∨ frame = .hold .tunerCloseHold ∨
        outcome.next.any Frame.settlesHold = true) ∨
    outcome.shared.tuner.heldFd.isSome = true ∧ ∃ fd, frame = .hold (.installHoldFd [] fd)
  replaced : frame.replacesHold = true → outcome.shared.tuner.heldFd = none ∨
    outcome.next.any Frame.replacesHold = true
  settled : frame.settlesHold = true → outcome.shared.tuner.tunedFrequencyHz = 0 ∨
    outcome.shared.tuner.heldFd.isSome = true ∨ outcome.shared.tuner.busy = true ∨
    outcome.next.any Frame.settlesHold = true ∨
    ∃ tuning, frame = .hold (.holdReopen [] tuning) ∧ w.node.opener.isSome = true
  released : w.tuner.busy = true → outcome.shared.tuner.busy = true ∨
    outcome.shared.tuner.tunedFrequencyHz = 0 ∨ outcome.shared.tuner.heldFd.isSome = true ∨
    outcome.next.any Frame.settlesHold = true ∨ ∃ fd, frame = .release (.parkInstall fd)
  picked : frame.selects w = w.tuner.tuning ∨ outcome.shared.tuner.tunedFrequencyHz = 0 ∨
    outcome.shared.tuner.busy = true ∨ outcome.next.any Frame.settlesHold = true

@[simp]
theorem any_stopping (p : Frame → Bool) (held : Option Fd) (frames : List Frame) :
    (stopping held frames).any p =
      ((held.isSome && p (.hold .stopHeldStats)) || frames.any p) := by
  unfold stopping
  cases held <;> simp

/-- A refused open found the node open, if opens of a closed node succeed. -/
theorem opener_of_refused {node : Node} {fd : Fd} {ok : Bool} (refused : node.open? fd ok = none)
    (succeeds : node.opener.isNone = true → ok = true) : node.opener.isSome = true := by
  by_contra closed
  rw [Option.not_isSome_iff_eq_none] at closed
  have ok_ := succeeds (by rw [closed]; rfl)
  rw [Node.open?, if_pos ⟨closed, ok_⟩] at refused
  cases refused

section Groups

variable {w : World} {χ : Choice} {outcome : Outcome}

/-- An action of a call that neither brings a hold nor selects anything, and
that leaves the selection, the hold and the claim as they are. -/
theorem HoldStep.kept {frame : Frame} (selects : frame.selects w = w.tuner.tuning)
    (replaces : frame.replacesHold = false) (settles : frame.settlesHold = false)
    (tuning : outcome.shared.tuner.tuning = w.tuner.tuning)
    (held : outcome.shared.tuner.heldFd = w.tuner.heldFd)
    (busy : outcome.shared.tuner.busy = w.tuner.busy) : HoldStep w frame outcome where
  selected := tuning.trans selects.symm
  held := .inl held
  replaced := fun true_ => absurd true_ (by rw [replaces]; exact Bool.false_ne_true)
  settled := fun true_ => absurd true_ (by rw [settles]; exact Bool.false_ne_true)
  released := fun claimed => .inl (busy.trans claimed)
  picked := .inl selects

theorem holdAct_holdStep {frame : HoldFrame}
    (succeeds : (Frame.hold frame).usesFrontend w = true → χ.ok = true)
    (streaming : w.tuner.activeStream.isSome = true →
      w.tuner.busy = true ∧ w.tuner.heldFd = none)
    (acted : holdAct w χ frame = some outcome) : HoldStep w (.hold frame) outcome := by
  revert acted
  fun_cases holdAct w χ frame <;> intro acted <;> cases acted
  all_goals first
    | exact .kept rfl rfl rfl rfl rfl rfl
    | constructor <;> simp_all [Frame.selects, Tuner.tuning, Frame.replacesHold,
        Frame.settlesHold, Outcome.next, Frame.usesFrontend, -List.any_eq_true]
  case case12.refl.settled refused => 
    exact .inr (.inr (.inr (opener_of_refused refused (by simpa using succeeds))))
  case case16.refl.settled given =>
    rcases given with active | held
    · exact .inr (.inr (streaming active).1)
    · exact .inr (.inl held)

theorem releaseAct_holdStep {frame : ReleaseFrame}
    (acted : releaseAct w χ frame = some outcome) : HoldStep w (.release frame) outcome := by
  revert acted
  fun_cases releaseAct w χ frame <;> intro acted <;> cases acted
  all_goals first
    | exact .kept rfl rfl rfl rfl rfl rfl
    | constructor <;> simp_all [Frame.selects, Tuner.tuning, Frame.replacesHold,
        Frame.settlesHold, Outcome.next, -List.any_eq_true]
  case case8.refl.released kept =>
    intro _
    by_cases idle : w.tuner.tunedFrequencyHz = 0
    · exact .inl idle
    · exact .inr (Option.isSome_iff_ne_none.mpr (kept idle))

theorem claimAct_holdStep {frame : ClaimFrame}
    (acted : claimAct w χ frame = some outcome) : HoldStep w (.claim frame) outcome := by
  revert acted
  fun_cases claimAct w χ frame <;> intro acted <;> cases acted
  all_goals first
    | exact .kept rfl rfl rfl rfl rfl rfl
    | constructor <;> simp_all [Frame.selects, Tuner.tuning, Frame.replacesHold,
        Frame.settlesHold, Outcome.next, -List.any_eq_true]

theorem streamAct_holdStep {frame : StreamFrame}
    (acted : streamAct w χ frame = some outcome) : HoldStep w (.stream frame) outcome := by
  revert acted
  fun_cases streamAct w χ frame <;> intro acted <;> cases acted
  all_goals exact .kept rfl rfl rfl rfl rfl rfl

theorem pushAct_holdStep {frame : PushFrame} (claims : frame.claims = 1 → w.tuner.busy = true)
    (acted : pushAct w χ frame = some outcome) : HoldStep w (.push frame) outcome := by
  revert acted
  fun_cases pushAct w χ frame <;> intro acted <;> cases acted
  all_goals first
    | exact .kept rfl rfl rfl rfl rfl rfl
    | constructor <;> simp_all [Frame.selects, Tuner.tuning, Frame.replacesHold,
        Frame.settlesHold, Outcome.next, -List.any_eq_true]

theorem pullAct_holdStep {frame : PullFrame} (claims : frame.claims = 1 → w.tuner.busy = true)
    (acted : pullAct w χ frame = some outcome) : HoldStep w (.pull frame) outcome := by
  revert acted
  fun_cases pullAct w χ frame <;> intro acted <;> cases acted
  all_goals first
    | exact .kept rfl rfl rfl rfl rfl rfl
    | constructor <;> simp_all [Frame.selects, Tuner.tuning, Frame.replacesHold,
        Frame.settlesHold, Outcome.next, -List.any_eq_true]

theorem setAct_holdStep {frame : SetFrame} (claims : frame.claims = 1 → w.tuner.busy = true)
    (working : w.tuner.scanWorkerActive = true → w.tuner.busy = true)
    (acted : setAct w χ frame = some outcome) : HoldStep w (.set frame) outcome := by
  revert acted
  fun_cases setAct w χ frame <;> intro acted <;> cases acted
  all_goals first
    | exact .kept rfl rfl rfl rfl rfl rfl
    | constructor <;> simp_all [Frame.selects, Tuner.tuning, Frame.replacesHold,
        Frame.settlesHold, Outcome.next, -List.any_eq_true]

theorem scanAct_holdStep {frame : ScanFrame}
    (acted : scanAct w χ frame = some outcome) : HoldStep w (.scan frame) outcome := by
  revert acted
  fun_cases scanAct w χ frame <;> intro acted <;> cases acted
  all_goals first
    | exact .kept rfl rfl rfl rfl rfl rfl
    | constructor <;> simp_all [Frame.selects, Tuner.tuning, Frame.replacesHold,
        Frame.settlesHold, Outcome.next, -List.any_eq_true]

theorem statsAct_holdStep {frame : StatsFrame}
    (acted : statsAct w χ frame = some outcome) : HoldStep w (.stats frame) outcome := by
  revert acted
  fun_cases statsAct w χ frame <;> intro acted <;> cases acted
  all_goals exact .kept rfl rfl rfl rfl rfl rfl

theorem act_holdStep {frame : Frame}
    (succeeds : frame.usesFrontend w = true → χ.ok = true)
    (claims : frame.claims = 1 → w.tuner.busy = true)
    (streaming : w.tuner.activeStream.isSome = true →
      w.tuner.busy = true ∧ w.tuner.heldFd = none)
    (working : w.tuner.scanWorkerActive = true → w.tuner.busy = true)
    (acted : act w frame χ = some outcome) : HoldStep w frame outcome := by
  cases frame with
  | hold frame => exact holdAct_holdStep succeeds streaming acted
  | release frame => exact releaseAct_holdStep acted
  | claim frame => exact claimAct_holdStep acted
  | stream frame => exact streamAct_holdStep acted
  | push frame => exact pushAct_holdStep claims acted
  | pull frame => exact pullAct_holdStep claims acted
  | set frame => exact setAct_holdStep claims working acted
  | scan frame => exact scanAct_holdStep acted
  | stats frame => exact statsAct_holdStep acted

end Groups

/-- A hold that is on its way is for what is selected, and a scan worker with an
open frontend has it tuned to its last attempt. -/
def Frame.aimed (selected : Tuning) (tuned : Option Tuning) : Frame → Prop
  | .hold (.tunerOpenHold tuning) | .hold (.holdReopen _ tuning) | .hold (.holdTune _ tuning) =>
      tuning = selected ∧ selected.freq ≠ 0
  | .hold (.installHoldFd _ _) | .hold (.tunerOpenHoldFromFd _) =>
      tuned = some selected ∧ selected.freq ≠ 0
  | .scan (.scanWaitLock job _) | .scan (.scanRecord job _) | .scan (.scanFinalize job _)
  | .scan (.scanReadPsip job) | .scan (.scanDequeue job) | .scan (.scanExit job) =>
      job.ffd.isSome = true → tuned = some (job.ctx.attempt job.freq)
  | _ => True

/-- A call that brings no hold does not look at the selection, and one without
a descriptor does not look at the node. -/
theorem aimed_of_apart {frame : Frame} {selected after : Tuning} {tuned next : Option Tuning}
    (aimed : frame.aimed selected tuned)
    (selection : after = selected ∨ frame.bringsHold = false)
    (node : next = tuned ∨ frame.fds = 0) : frame.aimed after next := by
  revert aimed selection node
  fun_cases Frame.aimed selected tuned frame
  case case6 job _ | case7 job _ | case8 job _ | case9 job | case10 job | case11 job =>
      intro aimed _ node opened
      rcases node with same | none_
      · rw [same]
        exact aimed opened
      · obtain ⟨fd, is⟩ := Option.isSome_iff_exists.mp opened
        simp [is] at none_
  all_goals simp_all [Frame.aimed]

theorem arrives_aimed (selected : Tuning) (tuned : Option Tuning) :
    ∀ frame, arrives frame = true → frame.aimed selected tuned := by
  simp [forall_arrives, Frame.aimed]

/-- `Frame.aimed` of all frames in a list. -/
def AimedAll (selected : Tuning) (tuned : Option Tuning) (frames : List Frame) : Prop :=
  ∀ frame ∈ frames, frame.aimed selected tuned

section AimedAll

variable {selected : Tuning} {tuned : Option Tuning}

@[simp]
theorem aimedAll_nil : AimedAll selected tuned [] :=
  List.forall_mem_nil _

@[simp]
theorem aimedAll_cons {frame : Frame} {frames : List Frame} :
    AimedAll selected tuned (frame :: frames) ↔
      frame.aimed selected tuned ∧ AimedAll selected tuned frames :=
  List.forall_mem_cons

@[simp]
theorem aimedAll_append {first second : List Frame} :
    AimedAll selected tuned (first ++ second) ↔
      AimedAll selected tuned first ∧ AimedAll selected tuned second :=
  List.forall_mem_append

@[simp]
theorem aimedAll_stopping {held : Option Fd} {frames : List Frame} :
    AimedAll selected tuned (stopping held frames) ↔ AimedAll selected tuned frames := by
  unfold stopping
  split <;> simp [Frame.aimed]

@[simp]
theorem aimedAll_granted (granted : Granted) : AimedAll selected tuned granted.frames := by
  rcases granted with ⟨_ | _, _⟩ | _ <;> simp [Granted.frames, Frame.aimed]

@[simp]
theorem aimedAll_claimTimedOut (db : ChannelDb) (who : Claimant) :
    AimedAll selected tuned (who.claimTimedOut db) := by
  rcases who with ⟨_ | _, _⟩ | _ <;> simp [Claimant.claimTimedOut, Frame.aimed]

@[simp]
theorem aimedAll_openFailed (who : Streamer) : AimedAll selected tuned who.openFailed := by
  cases who <;> simp [Streamer.openFailed, Frame.aimed]

@[simp]
theorem aimedAll_opened (who : Streamer) (ds : DvbStream) :
    AimedAll selected tuned (who.opened ds) := by
  cases who <;> simp [Streamer.opened, Frame.aimed]

end AimedAll

/-- Opens of a closed node and tunes succeed. -/
def frontendSucceeds : Guard World Frame Choice := fun w frame _ χ =>
  !frame.usesFrontend w || χ.ok

/-- The selection changes only while no other call brings a hold; and a hold
that is installed then is only left to be replaced by a `vchannel` SET. -/
def selectsSafely (w : World) (frame : Frame) (others : List Frame) : Bool :=
  frame.selects w == w.tuner.tuning ||
    (others.all (fun other => !other.bringsHold) &&
      (w.tuner.heldFd.isNone || frame.bindsVchannel))

/-- A hold is only brought for what is selected, and a call that leaves the
tuner without the hold that it should have leaves it to another. -/
def handsOnHold (w : World) (frame : Frame) (others : List Frame) : Bool :=
  match frame with
  | .set (.vchannelHold key) =>
      w.tuner.tuning == ⟨(w.db.deref key).frequencyHz, (w.db.deref key).delivery⟩ &&
        w.tuner.tunedFrequencyHz != 0
  | .scan (.scanExit job) =>
      job.ffd.isNone || w.tuner.scanGeneration != job.ctx.generation ||
        (w.tuner.tuning == job.ctx.attempt job.freq && w.tuner.tunedFrequencyHz != 0)
  | .hold (.holdReopen [] _) =>
      w.node.opener.isNone || w.tuner.heldFd.isSome || w.tuner.busy ||
        others.any Frame.settlesHold
  | .release (.parkInstall _) =>
      w.tuner.tunedFrequencyHz == 0 || others.any Frame.settlesHold
  | _ => true

def holdsSettle : Guard World Frame Choice := fun w frame others χ =>
  frontendSucceeds w frame others χ && selectsSafely w frame others && handsOnHold w frame others

section Groups

variable {w : World} {χ : Choice} {outcome : Outcome}

/-- The holds that an action leaves on their way are for what is selected. -/
def NextAimed (outcome : Outcome) : Prop :=
  AimedAll outcome.shared.tuner.tuning outcome.shared.node.tuning outcome.next

theorem holdAct_nextAimed {frame : HoldFrame} (covered : w.fds + frame.fds ≤ w.nodeFds)
    (succeeds : (Frame.hold frame).usesFrontend w = true → χ.ok = true)
    (aimed : (Frame.hold frame).aimed w.tuner.tuning w.node.tuning)
    (acted : holdAct w χ frame = some outcome) : NextAimed outcome := by
  revert acted
  fun_cases holdAct w χ frame <;> intro acted <;> cases acted <;>
    simp_all [NextAimed, Outcome.next, Frame.aimed, Tuner.tuning, Frame.usesFrontend]
  case case13.refl => exact tuning_tune covered _
  case case15.refl =>
    -- Nobody has two descriptors of the node.
    have two := le_trans (add_le_add_right (add_le_add_right le_self_add _) _) covered
    exact absurd two not_covered_two

theorem releaseAct_nextAimed {frame : ReleaseFrame}
    (acted : releaseAct w χ frame = some outcome) : NextAimed outcome := by
  revert acted
  fun_cases releaseAct w χ frame <;> intro acted <;> cases acted <;>
    simp_all [NextAimed, Outcome.next, Frame.aimed, Tuner.tuning]

theorem claimAct_nextAimed {frame : ClaimFrame}
    (acted : claimAct w χ frame = some outcome) : NextAimed outcome := by
  revert acted
  fun_cases claimAct w χ frame <;> intro acted <;> cases acted <;>
    simp [NextAimed, Outcome.next, Frame.aimed]

theorem streamAct_nextAimed {frame : StreamFrame}
    (acted : streamAct w χ frame = some outcome) : NextAimed outcome := by
  revert acted
  fun_cases streamAct w χ frame <;> intro acted <;> cases acted <;>
    simp [NextAimed, Outcome.next, Frame.aimed]

theorem pushAct_nextAimed {frame : PushFrame}
    (acted : pushAct w χ frame = some outcome) : NextAimed outcome := by
  revert acted
  fun_cases pushAct w χ frame <;> intro acted <;> cases acted <;>
    simp [NextAimed, Outcome.next, Frame.aimed]

theorem pullAct_nextAimed {frame : PullFrame}
    (acted : pullAct w χ frame = some outcome) : NextAimed outcome := by
  revert acted
  fun_cases pullAct w χ frame <;> intro acted <;> cases acted <;>
    simp [NextAimed, Outcome.next, Frame.aimed]

theorem setAct_nextAimed {frame : SetFrame} {others : List Frame}
    (handsOn : handsOnHold w frame others = true)
    (acted : setAct w χ frame = some outcome) : NextAimed outcome := by
  revert acted
  fun_cases setAct w χ frame <;> intro acted <;> cases acted <;>
    simp_all [NextAimed, Outcome.next, Frame.aimed, Tuner.tuning, handsOnHold]
  case case47.refl =>
    rw [← handsOn.1.1]
    exact handsOn.2

theorem scanAct_nextAimed {frame : ScanFrame} {others : List Frame}
    (covered : w.fds + frame.fds ≤ w.nodeFds)
    (succeeds : (Frame.scan frame).usesFrontend w = true → χ.ok = true)
    (handsOn : handsOnHold w frame others = true)
    (aimed : (Frame.scan frame).aimed w.tuner.tuning w.node.tuning)
    (acted : scanAct w χ frame = some outcome) : NextAimed outcome := by
  revert acted
  fun_cases scanAct w χ frame <;> intro acted <;> cases acted <;>
    simp_all [NextAimed, Outcome.next, Frame.aimed, Tuner.tuning, handsOnHold, Frame.usesFrontend]
  case case6.refl => exact tuning_tune covered _
  case case21.refl =>
    rw [← handsOn.1]
    exact handsOn.2

theorem statsAct_nextAimed {frame : StatsFrame} (acted : statsAct w χ frame = some outcome) :
    NextAimed outcome := by
  revert acted
  fun_cases statsAct w χ frame <;> intro acted <;> cases acted <;>
    simp [NextAimed, Outcome.next, Frame.aimed]

theorem act_nextAimed {frame : Frame} {others : List Frame}
    (covered : w.fds + frame.fds ≤ w.nodeFds)
    (succeeds : frame.usesFrontend w = true → χ.ok = true)
    (handsOn : handsOnHold w frame others = true)
    (aimed : frame.aimed w.tuner.tuning w.node.tuning)
    (acted : act w frame χ = some outcome) : NextAimed outcome := by
  cases frame with
  | hold frame => exact holdAct_nextAimed covered succeeds aimed acted
  | release frame => exact releaseAct_nextAimed acted
  | claim frame => exact claimAct_nextAimed acted
  | stream frame => exact streamAct_nextAimed acted
  | push frame => exact pushAct_nextAimed acted
  | pull frame => exact pullAct_nextAimed acted
  | set frame => exact setAct_nextAimed handsOn acted
  | scan frame => exact scanAct_nextAimed covered succeeds handsOn aimed acted
  | stats frame => exact statsAct_nextAimed acted

end Groups

/-- What a call below has to be: `tuner_close_hold` is followed by a reset of
the selection, and a worker that could not be started by a release. -/
@[simp]
def Frame.leavesTo : Frame → Option (Frame → Bool)
  | .hold .tunerCloseHold => some Frame.resetsSelection
  | .set .channelUnmark => some fun frame => frame.claims == 1
  | _ => none

def Followed : List Frame → Prop
  | [] => True
  | frame :: rest => (∀ p, frame.leavesTo = some p → rest.any p = true) ∧ Followed rest

/-- Nothing in a list leaves anything to a call below it. -/
def selfContained (frames : List Frame) : Bool :=
  frames.all fun frame => frame.leavesTo.isNone

@[simp]
theorem selfContained_nil : selfContained [] = true :=
  rfl

@[simp]
theorem selfContained_cons (frame : Frame) (frames : List Frame) :
    selfContained (frame :: frames) = (frame.leavesTo.isNone && selfContained frames) :=
  rfl

@[simp]
theorem selfContained_stopping (held : Option Fd) (frames : List Frame) :
    selfContained (stopping held frames) = selfContained frames := by
  cases held <;> rfl

@[simp]
theorem selfContained_granted (granted : Granted) : selfContained granted.frames = true := by
  rcases granted with ⟨_ | _, _⟩ | _ <;> rfl

@[simp]
theorem selfContained_claimTimedOut (db : ChannelDb) (who : Claimant) :
    selfContained (who.claimTimedOut db) = true := by
  rcases who with ⟨_ | _, _⟩ | _ <;> rfl

@[simp]
theorem selfContained_openFailed (who : Streamer) : selfContained who.openFailed = true := by
  cases who <;> rfl

@[simp]
theorem selfContained_opened (who : Streamer) (stream : DvbStream) :
    selfContained (who.opened stream) = true := by
  cases who <;> rfl

theorem Followed.append {frames rest : List Frame} (first : Followed frames)
    (second : Followed rest) : Followed (frames ++ rest) := by
  induction frames with
  | nil => exact second
  | cons frame frames ih =>
      refine ⟨fun p leaves => ?_, ih first.2⟩
      change (frames ++ rest).any p = true
      rw [List.any_append, first.1 p leaves, Bool.true_or]

theorem followed_of_selfContained {frames : List Frame} (none : selfContained frames = true) :
    Followed frames := by
  induction frames with
  | nil => trivial
  | cons frame frames ih =>
      rw [selfContained_cons, Bool.and_eq_true, Option.isNone_iff_eq_none] at none
      refine ⟨fun p leaves => ?_, ih none.2⟩
      rw [none.1] at leaves
      cases leaves

theorem Followed.exists_mem {stack : List Frame} {frame : Frame} {p : Frame → Bool}
    (followed : Followed stack) (member : frame ∈ stack) (leaves : frame.leavesTo = some p) :
    ∃ other ∈ stack, p other = true := by
  induction stack with
  | nil => exact absurd member List.not_mem_nil
  | cons top rest ih =>
      rcases List.mem_cons.mp member with rfl | below
      · obtain ⟨other, inside, is⟩ := List.any_eq_true.mp (followed.1 p leaves)
        exact ⟨other, List.mem_cons_of_mem _ inside, is⟩
      · obtain ⟨other, inside, is⟩ := ih followed.2 below
        exact ⟨other, List.mem_cons_of_mem _ inside, is⟩

/-- What is below the acting call, if it leaves something to it. -/
theorem exists_below {frame : Frame} {others : List Frame} {p : Frame → Bool}
    (stacked : Stacked Followed frame others) (leaves : frame.leavesTo = some p) :
    ∃ below ∈ others, p below = true := by
  obtain ⟨rest, threads, followed, -, rfl⟩ := stacked
  obtain ⟨below, member, is⟩ := List.any_eq_true.mp (followed.1 p leaves)
  exact ⟨below, List.mem_append_left _ member, is⟩

section Groups

variable {w : World} {χ : Choice} {outcome : Outcome}

/-- The frames that an action leaves, and the threads that it starts. -/
def KeepsFollowed (outcome : Outcome) : Prop :=
  Followed outcome.frames ∧ ∀ stack ∈ outcome.spawned, Followed stack

theorem keepsFollowed_of_selfContained (frames : selfContained outcome.frames = true)
    (spawned : outcome.spawned.all selfContained = true) : KeepsFollowed outcome := by
  refine ⟨followed_of_selfContained frames, fun stack member => ?_⟩
  exact followed_of_selfContained (List.all_eq_true.mp spawned stack member)

theorem setAct_followed {frame : SetFrame} (acted : setAct w χ frame = some outcome) :
    KeepsFollowed outcome := by
  revert acted
  fun_cases setAct w χ frame <;> intro acted <;> cases acted
  all_goals first
    | exact keepsFollowed_of_selfContained rfl rfl
    | exact ⟨by simp [Followed], fun _ member => absurd member List.not_mem_nil⟩

theorem act_followed {frame : Frame} (acted : act w frame χ = some outcome) :
    KeepsFollowed outcome := by
  revert acted
  cases frame with
  | hold frame =>
      simp only [act]
      fun_cases holdAct w χ frame <;> intro acted <;> cases acted <;>
        exact keepsFollowed_of_selfContained (by simp) (by simp)
  | release frame =>
      simp only [act]
      fun_cases releaseAct w χ frame <;> intro acted <;> cases acted <;>
        exact keepsFollowed_of_selfContained rfl rfl
  | claim frame =>
      simp only [act]
      fun_cases claimAct w χ frame <;> intro acted <;> cases acted <;>
        exact keepsFollowed_of_selfContained (by simp) rfl
  | stream frame =>
      simp only [act]
      fun_cases streamAct w χ frame <;> intro acted <;> cases acted <;>
        exact keepsFollowed_of_selfContained (by simp) (by simp)
  | push frame =>
      simp only [act]
      fun_cases pushAct w χ frame <;> intro acted <;> cases acted <;>
        exact keepsFollowed_of_selfContained rfl rfl
  | pull frame =>
      simp only [act]
      fun_cases pullAct w χ frame <;> intro acted <;> cases acted <;>
        exact keepsFollowed_of_selfContained rfl rfl
  | set frame => exact setAct_followed
  | scan frame =>
      simp only [act]
      fun_cases scanAct w χ frame <;> intro acted <;> cases acted <;>
        exact keepsFollowed_of_selfContained rfl rfl
  | stats frame =>
      simp only [act]
      fun_cases statsAct w χ frame <;> intro acted <;> cases acted <;>
        exact keepsFollowed_of_selfContained rfl rfl

end Groups

theorem arrives_leavesTo : ∀ frame, arrives frame = true → frame.leavesTo = none := by
  simp [forall_arrives]

/-- A worker that has not cleared `scan_worker_active`, or the SET that starts it. -/
def Frame.works (frame : Frame) : Nat :=
  (frame.worker.isSome || frame.leaving).toNat

/-- An action hands the session of the worker on, or ends it. -/
def KeepsWorker (w : World) (works : Nat) (outcome : Outcome) : Prop :=
  outcome.shared.tuner.scanWorkerActive = false ∨
    outcome.shared.tuner.scanWorkerActive.toNat + works ≤ w.tuner.scanWorkerActive.toNat +
      ((outcome.frames.map Frame.works).sum + (outcome.spawned.flatten.map Frame.works).sum)

section Groups

variable {w : World} {χ : Choice} {outcome : Outcome}

theorem Apart.keepsWorker (apart : Apart w outcome) : KeepsWorker w 0 outcome := by
  right
  rw [apart.1]
  exact Nat.le_add_right _ _

theorem setAct_keepsWorker {frame : SetFrame} (acted : setAct w χ frame = some outcome) :
    KeepsWorker w (Frame.set frame).works outcome := by
  revert acted
  fun_cases setAct w χ frame <;> intro acted <;> cases acted <;>
    simp_all [KeepsWorker, Frame.works]

theorem scanAct_keepsWorker {frame : ScanFrame} (acted : scanAct w χ frame = some outcome) :
    KeepsWorker w (Frame.scan frame).works outcome := by
  revert acted
  fun_cases scanAct w χ frame <;> intro acted <;> cases acted <;>
    simp_all [KeepsWorker, Frame.works]

theorem act_keepsWorker {frame : Frame} (acted : act w frame χ = some outcome) :
    KeepsWorker w frame.works outcome := by
  cases frame with
  | hold frame => exact (holdAct_apart acted).keepsWorker
  | release frame => exact (releaseAct_apart acted).keepsWorker
  | claim frame => exact (claimAct_apart acted).keepsWorker
  | stream frame => exact (streamAct_apart acted).keepsWorker
  | push frame => exact (pushAct_apart acted).keepsWorker
  | pull frame => exact (pullAct_apart acted).keepsWorker
  | set frame => exact setAct_keepsWorker acted
  | scan frame => exact scanAct_keepsWorker acted
  | stats frame => exact (statsAct_apart acted).keepsWorker

end Groups

section Reachable

variable {guard : Guard World Frame Choice} {db : ChannelDb} {config : Config World Frame}

theorem followed_of_reachable (reachable : machine.Reachable guard (start db) config) :
    ∀ stack ∈ config.threads, Followed stack := by
  refine reachable.forall_stacks Followed (fun _ member => (nomatch member)) ?_ ?_
  · intro frame arriving
    refine ⟨fun p leaves => ?_, trivial⟩
    rw [arrives_leavesTo frame arriving] at leaves
    cases leaves
  · intro w frame rest χ outcome before acted
    obtain ⟨frames, spawned⟩ := act_followed acted
    exact ⟨frames.append before.2, spawned⟩

theorem active_le_tally_works (reachable : machine.Reachable guard (start db) config) :
    config.shared.tuner.scanWorkerActive.toNat ≤ tally Frame.works config.frames := by
  refine reachable.invariant
    (fun w frames => w.tuner.scanWorkerActive.toNat ≤ tally Frame.works frames)
    (Nat.zero_le _) ?_ ?_
  · intro w frames frame le _
    rw [tally_cons]
    omega
  · intro w frame others χ outcome le _ acted
    rw [tally_cons] at le
    rw [tally_add, tally_add, tally_coe, tally_coe]
    rcases act_keepsWorker acted with idle | kept
    · simp [idle]
    · omega

/-- A worker, or what could not start one, has the claim. -/
theorem claims_of_works {frame : Frame} (works : frame.works ≠ 0) :
    frame.claims = 1 ∨ frame = .set .channelUnmark := by
  revert works
  unfold Frame.works
  fun_cases Frame.worker frame <;> try simp
  fun_cases Frame.leaving frame <;> simp

/-- While `scan_worker_active` is set, the tuner is claimed. -/
theorem busy_of_working (reachable : machine.Reachable guard (start db) config)
    (working : config.shared.tuner.scanWorkerActive = true) :
    config.shared.tuner.busy = true := by
  have busy_of_claims : ∀ frame ∈ config.frames, frame.claims = 1 →
      config.shared.tuner.busy = true := by
    intro frame member claims
    have le := token_le_tally Frame.claims member
    have one := Bool.toNat_le config.shared.tuner.busy
    rw [← busy_eq_tally_claims reachable, claims] at le
    exact Bool.toNat_eq_one.mp (by omega)
  have positive : tally Frame.works config.frames ≠ 0 := by
    have le := active_le_tally_works reachable
    rw [working, Bool.toNat_true] at le
    omega
  rw [ne_eq, tally_eq_zero, not_forall] at positive
  obtain ⟨frame, some_⟩ := positive
  obtain ⟨member, works⟩ := Classical.not_imp.mp some_
  rcases claims_of_works works with claims | rfl
  · exact busy_of_claims frame member claims
  · -- The release below has the claim.
    obtain ⟨stack, inside, top⟩ := List.mem_flatten.mp (Multiset.mem_coe.mp member)
    have followed := followed_of_reachable reachable stack inside
    obtain ⟨below, lower, claims⟩ := followed.exists_mem top rfl
    exact busy_of_claims below (Multiset.mem_coe.mpr (List.mem_flatten.mpr ⟨stack, inside, lower⟩))
      (by simpa using claims)

end Reachable

/-- What every reachable state is known to satisfy. -/
structure HoldContext (w : World) (frames : Multiset Frame) : Prop where
  owned : Owned w frames
  claimed : w.tuner.busy.toNat = tally Frame.claims frames
  streaming : w.tuner.activeStream.isSome = true → w.tuner.busy = true
  working : w.tuner.scanWorkerActive = true → w.tuner.busy = true

/-- A hold that is installed is tuned to what is selected or about to be
replaced, and one that is missing is brought by a call, or by the release of
the tuner. -/
structure HoldSettled (w : World) (frames : Multiset Frame) : Prop where
  matching : w.tuner.heldFd.isSome = true →
    w.node.tuning = some w.tuner.tuning ∧ w.tuner.tunedFrequencyHz ≠ 0 ∨
      ∃ frame ∈ frames, frame.replacesHold = true
  missing : w.tuner.tunedFrequencyHz ≠ 0 → w.tuner.heldFd = none →
    w.tuner.busy = true ∨ ∃ frame ∈ frames, frame.settlesHold = true
  aimed : ∀ frame ∈ frames, frame.aimed w.tuner.tuning w.node.tuning

section Step

variable {w : World} {frame : Frame} {others : List Frame} {χ : Choice} {outcome : Outcome}

theorem HoldContext.held_of_streaming {frames : Multiset Frame} (context : HoldContext w frames)
    (active : w.tuner.activeStream.isSome = true) : w.tuner.heldFd = none := by
  obtain ⟨stream, is⟩ := Option.isSome_iff_exists.mp active
  have card := card_nodeFds w
  rw [context.owned, Multiset.card_add, World.fds, is, Multiset.card_add, Multiset.card_add,
    Option.map_some, card_fdsOf_some] at card
  cases held : w.tuner.heldFd with
  | none => rfl
  | some fd =>
      rw [held, card_fdsOf_some] at card
      omega

theorem HoldContext.holdStep (context : HoldContext w (frame ::ₘ (others : Multiset Frame)))
    (succeeds : frame.usesFrontend w = true → χ.ok = true)
    (acted : act w frame χ = some outcome) : HoldStep w frame outcome := by
  refine act_holdStep succeeds ?_ ?_ context.working acted
  · intro claims
    have balance := context.claimed
    have one := Bool.toNat_le w.tuner.busy
    rw [tally_cons, claims] at balance
    exact Bool.toNat_eq_one.mp (by omega)
  · intro active
    exact ⟨context.streaming active, context.held_of_streaming active⟩

/-- The hold that a `vchannel` SET is going to open. -/
theorem replaces_of_bindsVchannel (binds : frame.bindsVchannel = true)
    (acted : act w frame χ = some outcome) : outcome.next.any Frame.replacesHold = true := by
  revert binds
  fun_cases Frame.bindsVchannel frame
  · cases acted
    intro _
    rfl
  · simp

theorem node_of_install {fd : Fd} (acted : act w (.hold (.installHoldFd [] fd)) χ = some outcome) :
    outcome.shared.node = w.node := by
  simp only [act, holdAct] at acted
  split at acted
  · cases acted
    rfl
  · split at acted <;> cases acted <;> rfl

/-- The calls that bring a hold go on being for what is selected. -/
theorem HoldSettled.aimed_after (context : HoldContext w (frame ::ₘ (others : Multiset Frame)))
    (settled : HoldSettled w (frame ::ₘ (others : Multiset Frame)))
    (succeeds : frame.usesFrontend w = true → χ.ok = true)
    (selects : selectsSafely w frame others = true) (handsOn : handsOnHold w frame others = true)
    (acted : act w frame χ = some outcome) :
    ∀ other ∈ framesAfter outcome others,
      other.aimed outcome.shared.tuner.tuning outcome.shared.node.tuning := by
  have covered : w.fds + frame.fds ≤ w.nodeFds := by
    have owned : Owned w _ := context.owned
    unfold Owned at owned
    rw [owned, tally_cons, ← add_assoc]
    exact le_self_add
  intro other member
  rcases mem_framesAfter.mp member with new | old
  · exact act_nextAimed covered succeeds handsOn (settled.aimed frame (Multiset.mem_cons_self _ _))
      acted other new
  · have before := settled.aimed other (Multiset.mem_cons_of_mem (Multiset.mem_coe.mpr old))
    apply aimed_of_apart before
    · rw [(context.holdStep succeeds acted).selected]
      rw [selectsSafely, Bool.or_eq_true, beq_iff_eq, Bool.and_eq_true, List.all_eq_true]
        at selects
      refine selects.imp_right fun safe => ?_
      simpa using safe.1 other old
    · rcases act_keepsNode acted with same | closed | owns
      · exact .inl (congrArg Node.tuning same)
      · exact .inr ((context.owned.closed closed).2 other old)
      · exact .inr ((context.owned.alone owns).2 other old)

theorem HoldSettled.matching_after
    (context : HoldContext w (frame ::ₘ (others : Multiset Frame)))
    (settled : HoldSettled w (frame ::ₘ (others : Multiset Frame)))
    (step : HoldStep w frame outcome) (selects : selectsSafely w frame others = true)
    (acted : act w frame χ = some outcome)
    (held : outcome.shared.tuner.heldFd.isSome = true) :
    outcome.shared.node.tuning = some outcome.shared.tuner.tuning ∧
        outcome.shared.tuner.tunedFrequencyHz ≠ 0 ∨
      ∃ other ∈ framesAfter outcome others, other.replacesHold = true := by
  have replacing : outcome.next.any Frame.replacesHold = true →
      ∃ other ∈ framesAfter outcome others, other.replacesHold = true := by
    intro next
    obtain ⟨other, member, is⟩ := List.any_eq_true.mp next
    exact ⟨other, mem_framesAfter.mpr (.inl member), is⟩
  by_cases replaces : frame.replacesHold = true
  · rcases step.replaced replaces with none | next
    · rw [none] at held
      cases held
    · exact .inr (replacing next)
  rcases step.held with same | ⟨none, -⟩ | ⟨-, fd, rfl⟩
  · rw [same] at held
    have node := context.owned.node_of_held held acted
    rcases settled.matching held with ⟨tuned, frequency⟩ | ⟨other, member, is⟩
    · rw [selectsSafely, Bool.or_eq_true, beq_iff_eq, Bool.and_eq_true, Bool.or_eq_true,
        Option.isNone_iff_eq_none] at selects
      rcases selects with kept | ⟨-, none | binds⟩
      · have selected := step.selected.trans kept
        have freq : outcome.shared.tuner.tunedFrequencyHz = w.tuner.tunedFrequencyHz :=
          congrArg Tuning.freq selected
        left
        rw [node, tuned, selected, freq]
        exact ⟨rfl, frequency⟩
      · rw [none] at held
        cases held
      · exact .inr (replacing (replaces_of_bindsVchannel binds acted))
    · rcases Multiset.mem_cons.mp member with rfl | elsewhere
      · exact absurd is replaces
      · exact .inr ⟨other, mem_framesAfter.mpr (.inr (Multiset.mem_coe.mp elsewhere)), is⟩
  · rw [none] at held
    cases held
  · -- What is installed is for what is selected.
    obtain ⟨tuned, frequency⟩ := settled.aimed _ (Multiset.mem_cons_self _ _)
    have selected : outcome.shared.tuner.tuning = w.tuner.tuning := step.selected
    have freq : outcome.shared.tuner.tunedFrequencyHz = w.tuner.tunedFrequencyHz :=
      congrArg Tuning.freq selected
    left
    rw [node_of_install acted, tuned, selected, freq]
    exact ⟨rfl, frequency⟩

theorem HoldSettled.missing_after (stacked : Stacked Followed frame others)
    (settled : HoldSettled w (frame ::ₘ (others : Multiset Frame)))
    (step : HoldStep w frame outcome) (handsOn : handsOnHold w frame others = true)
    (frequency : outcome.shared.tuner.tunedFrequencyHz ≠ 0)
    (missing : outcome.shared.tuner.heldFd = none) :
    outcome.shared.tuner.busy = true ∨
      ∃ other ∈ framesAfter outcome others, other.settlesHold = true := by
  have absent : outcome.shared.tuner.heldFd.isSome ≠ true := by
    rw [missing]
    exact Bool.false_ne_true
  have next_settles : outcome.next.any Frame.settlesHold = true →
      ∃ other ∈ framesAfter outcome others, other.settlesHold = true := by
    intro next
    obtain ⟨other, member, is⟩ := List.any_eq_true.mp next
    exact ⟨other, mem_framesAfter.mpr (.inl member), is⟩
  have others_settle : others.any Frame.settlesHold = true →
      ∃ other ∈ framesAfter outcome others, other.settlesHold = true := by
    intro other
    obtain ⟨other, member, is⟩ := List.any_eq_true.mp other
    exact ⟨other, mem_framesAfter.mpr (.inr member), is⟩
  have taken : w.tuner.heldFd.isSome = true → outcome.shared.tuner.busy = true ∨
      ∃ other ∈ framesAfter outcome others, other.settlesHold = true := by
    intro held
    rcases step.held with same | ⟨-, busy | rfl | next⟩ | ⟨installed, -⟩
    · rw [← same] at held
      exact absurd held absent
    · exact .inl busy
    · obtain ⟨below, member, resets⟩ := exists_below stacked rfl
      refine .inr (others_settle (List.any_eq_true.mpr ⟨below, member, ?_⟩))
      rw [Frame.settlesHold, resets, Bool.or_true]
    · exact .inr (next_settles next)
    · exact absurd installed absent
  have released : w.tuner.busy = true → outcome.shared.tuner.busy = true ∨
      ∃ other ∈ framesAfter outcome others, other.settlesHold = true := by
    intro busy
    rcases step.released busy with still | idle | held | next | ⟨fd, rfl⟩
    · exact .inl still
    · exact absurd idle frequency
    · exact absurd held absent
    · exact .inr (next_settles next)
    · rw [handsOnHold, Bool.or_eq_true, beq_iff_eq] at handsOn
      rcases handsOn with idle | settles
      · have freq : outcome.shared.tuner.tunedFrequencyHz = w.tuner.tunedFrequencyHz :=
          congrArg Tuning.freq step.selected
        exact absurd (freq.trans idle) frequency
      · exact .inr (others_settle settles)
  by_cases settles : frame.settlesHold = true
  · rcases step.settled settles with idle | held | busy | next | ⟨tuning, rfl, opened⟩
    · exact absurd idle frequency
    · exact absurd held absent
    · exact .inl busy
    · exact .inr (next_settles next)
    · rw [handsOnHold, Bool.or_eq_true, Bool.or_eq_true, Bool.or_eq_true,
        Option.isNone_iff_eq_none] at handsOn
      rcases handsOn with ((closed | held) | busy) | others_
      · rw [closed] at opened
        cases opened
      · exact taken held
      · exact released busy
      · exact .inr (others_settle others_)
  · by_cases held : w.tuner.heldFd.isSome = true
    · exact taken held
    by_cases idle : w.tuner.tunedFrequencyHz = 0
    · rcases step.picked with kept | none | busy | next
      · have freq : outcome.shared.tuner.tunedFrequencyHz = w.tuner.tunedFrequencyHz :=
          congrArg Tuning.freq (step.selected.trans kept)
        exact absurd (freq.trans idle) frequency
      · exact absurd none frequency
      · exact .inl busy
      · exact .inr (next_settles next)
    · rcases settled.missing idle (Option.not_isSome_iff_eq_none.mp held) with
        busy | ⟨other, member, is⟩
      · exact released busy
      · rcases Multiset.mem_cons.mp member with rfl | elsewhere
        · exact absurd is settles
        · exact .inr ⟨other, mem_framesAfter.mpr (.inr (Multiset.mem_coe.mp elsewhere)), is⟩

theorem HoldSettled.step (stacked : Stacked Followed frame others)
    (context : HoldContext w (frame ::ₘ (others : Multiset Frame)))
    (settled : HoldSettled w (frame ::ₘ (others : Multiset Frame)))
    (allowed : holdsSettle w frame others χ = true) (acted : act w frame χ = some outcome) :
    HoldSettled outcome.shared (framesAfter outcome others) := by
  rw [holdsSettle, Bool.and_eq_true, Bool.and_eq_true] at allowed
  obtain ⟨⟨succeeds, selects⟩, handsOn⟩ := allowed
  have succeeds : frame.usesFrontend w = true → χ.ok = true := by
    intro uses
    rw [frontendSucceeds, uses] at succeeds
    exact succeeds
  have step := context.holdStep succeeds acted
  exact ⟨settled.matching_after context step selects acted,
    settled.missing_after stacked step handsOn,
    settled.aimed_after context succeeds selects handsOn acted⟩

end Step

section Reachable

variable {db : ChannelDb} {config : Config World Frame}

theorem holdContext_of_reachable {guard : Guard World Frame Choice}
    (reachable : machine.Reachable guard (start db) config) :
    HoldContext config.shared config.frames where
  owned := nodeFds_eq reachable
  claimed := busy_eq_tally_claims reachable
  streaming := busy_of_active reachable
  working := busy_of_working reachable

theorem holdSettled_of_reachable (reachable : machine.Reachable holdsSettle (start db) config) :
    HoldSettled config.shared config.frames := by
  refine reachable.invariant_of_stacks Followed HoldContext HoldSettled
    (fun _ => followed_of_reachable) (fun _ => holdContext_of_reachable) ?_ ?_ ?_
  · constructor
    · exact fun held => nomatch held
    · exact fun frequency => absurd rfl frequency
    · exact fun _ member => absurd member (Multiset.notMem_zero _)
  · intro w frames frame settled arriving
    constructor
    · intro held
      refine (settled.matching held).imp_right ?_
      rintro ⟨other, member, is⟩
      exact ⟨other, Multiset.mem_cons_of_mem member, is⟩
    · intro frequency missing
      refine (settled.missing frequency missing).imp_right ?_
      rintro ⟨other, member, is⟩
      exact ⟨other, Multiset.mem_cons_of_mem member, is⟩
    · intro other member
      rcases Multiset.mem_cons.mp member with rfl | old
      · exact arrives_aimed _ _ _ arriving
      · exact settled.aimed other old
  · intro w frame others χ outcome stacked context settled allowed acted
    exact settled.step stacked context allowed acted

/-- The frames of the thread that refreshes the stats of a hold. -/
@[simp]
def Frame.refreshes : Frame → Bool
  | .stats (.heldStatsThread _) | .stats (.heldStatsRead _ _) | .stats (.heldStatsPublish _ _ _)
  | .stats (.heldStatsSleep _ _) => true
  | _ => false

/-- The tuner is free, and nothing runs on it but the refresher of a hold. -/
def HoldQuiescent (config : Config World Frame) : Prop :=
  config.shared.tuner.busy = false ∧ ∀ frame ∈ config.frames, frame.refreshes = true

instance (config : Config World Frame) : Decidable (HoldQuiescent config) :=
  inferInstanceAs (Decidable (_ ∧ _))

/-- Something is held exactly when something is selected, and then it is that. -/
def World.HoldsSelected (w : World) : Prop :=
  (w.tuner.heldFd.isSome = true ↔ w.tuner.tunedFrequencyHz ≠ 0) ∧
    (w.tuner.heldFd.isSome = true →
      w.node.opener = w.tuner.heldFd ∧ w.node.tuning = some w.tuner.tuning)

instance (w : World) : Decidable w.HoldsSelected :=
  inferInstanceAs (Decidable (_ ∧ _))

theorem not_settles_of_refreshes {frame : Frame} (refreshes : frame.refreshes = true) :
    frame.replacesHold = false ∧ frame.settlesHold = false := by
  revert refreshes
  fun_cases Frame.refreshes frame <;> simp [Frame.replacesHold, Frame.settlesHold]

/-- While only refreshers run, what is selected is held, if every hold on its
way was for what is selected and was handed on. -/
theorem selected_held_when_quiescent
    (reachable : machine.Reachable holdsSettle (start db) config)
    (quiescent : HoldQuiescent config) : config.shared.HoldsSelected := by
  have settled := holdSettled_of_reachable reachable
  have context := holdContext_of_reachable reachable
  obtain ⟨free, only⟩ := quiescent
  have matching : config.shared.tuner.heldFd.isSome = true →
      config.shared.node.tuning = some config.shared.tuner.tuning ∧
        config.shared.tuner.tunedFrequencyHz ≠ 0 := by
    intro held
    rcases settled.matching held with matching | ⟨frame, member, replaces⟩
    · exact matching
    · rw [(not_settles_of_refreshes (only frame member)).1] at replaces
      cases replaces
  refine ⟨⟨fun held => (matching held).2, fun frequency => ?_⟩, fun held => ⟨?_, (matching held).1⟩⟩
  · by_contra missing
    rw [Option.not_isSome_iff_eq_none] at missing
    rcases settled.missing frequency missing with busy | ⟨frame, member, settles⟩
    · rw [free] at busy
      cases busy
    · rw [(not_settles_of_refreshes (only frame member)).2] at settles
      cases settles
  · obtain ⟨fd, is⟩ := Option.isSome_iff_exists.mp held
    have inside : fd ∈ config.shared.nodeFds := by
      rw [context.owned, World.fds, is]
      simp [fdsOf, fdsIn]
    rw [is]
    simpa [World.nodeFds, fdsOf, fdsIn] using inside

end Reachable

/-- A `vchannel` SET on a free tuner. -/
def heldChannel : Schedule :=
  .arrive (.set (.vchannelSet ⟨2, 1⟩)) :: steps 0 9

theorem selected_held_when_quiescent_vchannel :
    ∃ config, machine.Reachable holdsSettle (start oneStation) config ∧
      HoldQuiescent config ∧ config.shared.tuner.heldFd.isSome = true ∧
      config.shared.HoldsSelected := by
  obtain ⟨config, reachable, quiescent, held⟩ := machine.reachable_of_run holdsSettle
    (start oneStation) heldChannel
    (fun config => HoldQuiescent config ∧ config.shared.tuner.heldFd.isSome = true)
    (by decide +kernel)
  exact ⟨config, reachable, quiescent, held, selected_held_when_quiescent reachable quiescent⟩

/-- A scan under a cable map, up to the end of the SET. -/
def cableScan : Schedule :=
  .arrive (.set (.channelmapSet "us-cable".toList)) :: steps 0 4 ++
    .arrive (.set (.channelSet "us-cable:23".toList)) :: steps 1 4 ++ steps 2 11 ++
    .act 2 { timedOut := true } :: steps 2 6 ++ steps 1 1

/-- What was scanned as QAM is held, but 8VSB is selected. -/
theorem scanned_cable_channel_held_as_qam :
    ∃ config, machine.Reachable frontendSucceeds (start oneStation) config ∧
      HoldQuiescent config ∧ ¬ config.shared.HoldsSelected :=
  machine.reachable_of_run frontendSucceeds (start oneStation) cableScan
    (fun config => HoldQuiescent config ∧ ¬ config.shared.HoldsSelected)
    (by decide +kernel)

end HdhrEmu
