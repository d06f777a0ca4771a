import HdhrEmu.Tuner

/-!
# The selection and its writers

Three fields say what a tuner is set to: the channel text, the frequency and
the delivery system.  This module runs any sequence of the operations that
write them, and determines when the three agree after each one.  A raw
`channel` SET, free or queued, puts the delivery system of the active map into
the text but leaves `tuned_delivery` as the last bind left it.
-/

namespace HdhrEmu

/-- An operation that writes the selection. -/
inductive SelectionOp
  | poolInit
  | channelmapSet (value : CStr)
  | channelSet (value : CStr) (queued : Bool)
  | bindChannel (ch : DvbChannel) (programOverride : Int)
  | releaseHttpPull (ch : DvbChannel)

/-- The operation as a whole, when nothing else runs. -/
def selectionStep (t : Tuner) : SelectionOp → Tuner
  | .poolInit => Tuner.init
  | .channelmapSet value => if channelmapSupported value then t.channelmapReset value else t
  | .channelSet value queued =>
      if value = noneText then t.channelNoneReset
      else
        match parseChannelValue t.channelmap value with
        | none => t
        | some parsed =>
            let delivery := deliveryForMap t.channelmap
            if queued then t.channelQueue delivery parsed
            else t.channelSelect delivery parsed.freq
  | .bindChannel ch programOverride => t.tunerBindChannel ch programOverride
  | .releaseHttpPull ch => t.pullReset ch

def selectionRun (t : Tuner) (ops : List SelectionOp) : Tuner :=
  ops.foldl selectionStep t

/-- The channel text, the frequency and the delivery system agree. -/
def Selection.Consistent (selection : Selection) : Prop :=
  (selection.channel = noneText ↔ selection.tunedFrequencyHz = 0) ∧
    (selection.tunedFrequencyHz ≠ 0 →
      selection.channel = channelText selection.tunedDelivery selection.tunedFrequencyHz)

/-- Binds are of database channels with a frequency. -/
def SelectionOp.Tunable : SelectionOp → Prop
  | .bindChannel ch _ => ch.frequencyHz ≠ 0
  | _ => True

/-- An accepted raw `channel` SET finds the delivery system of the active map
already in `tuned_delivery`. -/
def SelectionOp.DeliveryAgrees (t : Tuner) : SelectionOp → Prop
  | .channelSet value _ =>
      value ≠ noneText → (parseChannelValue t.channelmap value).isSome →
        deliveryForMap t.channelmap = t.tunedDelivery
  | _ => True

namespace Selection

theorem consistent_of_none {selection : Selection} (channel : selection.channel = noneText)
    (frequency : selection.tunedFrequencyHz = 0) : selection.Consistent := by
  simp [Consistent, channel, frequency]

/-- With a frequency selected, agreement is about the delivery system alone. -/
theorem consistent_channelText_iff {selection : Selection} {delivery : DeliverySystem}
    (channel : selection.channel = channelText delivery selection.tunedFrequencyHz)
    (frequency : selection.tunedFrequencyHz ≠ 0) :
    selection.Consistent ↔ delivery = selection.tunedDelivery := by
  have notNone : selection.channel ≠ noneText := channel ▸ channelText_ne_none _ _
  constructor
  · rintro ⟨-, text⟩
    exact (channelText_injective (channel.symm.trans (text frequency))).1
  · rintro rfl
    exact ⟨iff_of_false notNone frequency, fun _ => channel⟩

end Selection

/-- One operation keeps the agreement exactly when it is no raw SET across a
change of delivery system. -/
theorem selectionStep_consistent_iff {t : Tuner} {op : SelectionOp}
    (consistent : t.Consistent) (tunable : op.Tunable) :
    (selectionStep t op).Consistent ↔ op.DeliveryAgrees t := by
  cases op with
  | poolInit =>
      exact iff_of_true (Selection.consistent_of_none rfl rfl) trivial
  | channelmapSet value =>
      refine iff_of_true ?_ trivial
      simp only [selectionStep]
      split
      · exact Selection.consistent_of_none rfl rfl
      · exact consistent
  | channelSet value queued =>
      simp only [selectionStep, SelectionOp.DeliveryAgrees]
      split
      · rename_i isNone
        exact iff_of_true (Selection.consistent_of_none rfl rfl) fun notNone =>
          absurd isNone notNone
      · rename_i notNone
        cases accepted : parseChannelValue t.channelmap value with
        | none => simp [consistent]
        | some parsed =>
            have frequency := parseChannelValue_freq_ne_zero accepted
            simp only [notNone, not_false_eq_true, Option.isSome_some, forall_const, ne_eq]
            split
            · exact Selection.consistent_channelText_iff rfl frequency
            · exact Selection.consistent_channelText_iff rfl frequency
  | bindChannel ch programOverride =>
      have frequency : (t.tunerBindChannel ch programOverride).tunedFrequencyHz ≠ 0 := tunable
      exact iff_of_true ((Selection.consistent_channelText_iff rfl frequency).mpr rfl) trivial
  | releaseHttpPull ch =>
      refine iff_of_true ?_ trivial
      simp only [selectionStep, Tuner.pullReset]
      split
      · exact Selection.consistent_of_none rfl rfl
      · exact consistent

/-- The run lemma, from any state in which the selection agrees. -/
theorem selectionRun_consistent_iff {t : Tuner} (consistent : t.Consistent)
    {ops : List SelectionOp} (tunable : ∀ op ∈ ops, op.Tunable) :
    (∀ front back, ops = front ++ back → (selectionRun t front).Consistent) ↔
      ∀ front op back, ops = front ++ op :: back → op.DeliveryAgrees (selectionRun t front) := by
  induction ops generalizing t with
  | nil =>
      refine iff_of_true ?_ ?_
      · intro front back split
        obtain ⟨rfl, -⟩ := List.append_eq_nil_iff.mp split.symm
        exact consistent
      · intro front op back split
        simp at split
  | cons op ops ih =>
      have stepped := selectionStep_consistent_iff consistent (tunable op List.mem_cons_self)
      have restTunable : ∀ other ∈ ops, other.Tunable := fun other member =>
        tunable other (List.mem_cons_of_mem _ member)
      constructor
      · intro each
        have next : (selectionStep t op).Consistent := each [op] ops rfl
        rintro (_ | ⟨first, front⟩) other back split
        · cases split
          exact stepped.mp next
        · obtain ⟨rfl, rest⟩ := List.cons.inj split
          refine (ih next restTunable).mp ?_ front other back rest
          intro front' back' split'
          exact each (op :: front') back' (by rw [split']; rfl)
      · intro agrees
        have next : (selectionStep t op).Consistent := stepped.mpr (agrees [] op ops rfl)
        rintro (_ | ⟨first, front⟩) back split
        · exact consistent
        · obtain ⟨rfl, rest⟩ := List.cons.inj split
          refine (ih next restTunable).mpr ?_ front back rest
          intro front' other back' split'
          exact agrees (op :: front') other back' (by rw [split']; rfl)

/-- From the state `tuner_pool_init` leaves, the channel text, the frequency
and the delivery system agree after each operation exactly when every accepted
raw SET arrives while the active map has the delivery system of the last bind. -/
theorem selection_consistent_iff (ops : List SelectionOp) (tunable : ∀ op ∈ ops, op.Tunable) :
    (∀ front back, ops = front ++ back → (selectionRun Tuner.init front).Consistent) ↔
      ∀ front op back, ops = front ++ op :: back →
        op.DeliveryAgrees (selectionRun Tuner.init front) :=
  selectionRun_consistent_iff (Selection.consistent_of_none rfl rfl) tunable

/-- A channel map change, a tune and the tune queued behind it, all 8VSB. -/
theorem selection_consistent_iff_kr_bcast :
    let ops : List SelectionOp :=
      [.channelmapSet "kr-bcast".toList, .channelSet "auto:7".toList false,
        .channelSet "auto:8".toList true]
    (∀ front back, ops = front ++ back → (selectionRun Tuner.init front).Consistent) ↔
      ∀ front op back, ops = front ++ op :: back →
        op.DeliveryAgrees (selectionRun Tuner.init front) :=
  selection_consistent_iff _ (by simp [SelectionOp.Tunable])

/-- A raw SET under a cable map leaves the delivery system of
`tuner_pool_init` behind. -/
theorem raw_set_under_cable_map_inconsistent :
    ¬ (selectionRun Tuner.init
        [.channelmapSet "us-cable".toList, .channelSet "us-cable:23".toList false]).Consistent := by
  intro consistent
  have frequency :
      (selectionRun Tuner.init [.channelmapSet "us-cable".toList,
        .channelSet "us-cable:23".toList false]).tunedFrequencyHz = 219000000 := by
    decide
  have text := consistent.2 (by rw [frequency]; decide)
  revert text
  decide

end HdhrEmu
