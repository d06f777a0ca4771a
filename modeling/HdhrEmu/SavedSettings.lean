import HdhrEmu.PidFilterFormat
import HdhrEmu.SettledSettings

/-!
# Saving the settings and restoring them

A client can read the settings of a server, parameter by parameter, and set
them again later, on the same server or on another one.  Most values are taken
back as they were given out.  What may be lost is the channel: a virtual channel
is looked up in the lineup again, and the modulation in a channel text is
passed over in favour of the one of the channel map.
-/

namespace HdhrEmu

open CString Interleaving

/-- The parameters of a tuner that can be set again. -/
inductive SettingLeaf
  | channelmap
  | channel
  | vchannel
  | program
  | filter
  | lockkey
  deriving DecidableEq, Repr

namespace SettingLeaf

def text : SettingLeaf → CStr
  | channelmap => "channelmap".toList
  | channel => "channel".toList
  | vchannel => "vchannel".toList
  | program => "program".toList
  | filter => "filter".toList
  | lockkey => "lockkey".toList

def all : List SettingLeaf :=
  [channelmap, channel, vchannel, program, filter, lockkey]

theorem mem_all (leaf : SettingLeaf) : leaf ∈ all := by
  cases leaf <;> decide

end SettingLeaf

namespace TunerView

/-- A tuner with these settings. -/
def tuner (v : TunerView) : Tuner :=
  { Tuner.init with toSelection := v.selection }

/-- What a GET of a parameter is answered with. -/
def reply (v : TunerView) (lockkey : UInt32) : SettingLeaf → CStr
  | .channelmap => v.selection.channelmap
  | .channel => v.selection.channel
  | .vchannel =>
      if v.selection.vchResolved then
        decimalSigned v.selection.vchMajor ++ '.' :: decimalSigned v.selection.vchMinor
      else noneText
  | .program => decimalSigned v.selection.program
  | .filter => filterReply v.tuner v.db
  | .lockkey => lockkeyText lockkey

end TunerView

/-- The replies show nothing but the settings. -/
theorem handleTunerGet_setting (w : World) (lockkey : UInt32) (instruments : Instruments)
    (leaf : SettingLeaf) :
    handleTunerGet w lockkey instruments leaf.text = .value (w.view.reply lockkey leaf) := by
  cases leaf <;> rfl

/-- The numbers are of type `int`. -/
structure IntFields (selection : Selection) : Prop where
  program : -2 ^ 31 ≤ selection.program ∧ selection.program < 2 ^ 31
  major : -2 ^ 31 ≤ selection.vchMajor ∧ selection.vchMajor < 2 ^ 31
  minor : -2 ^ 31 ≤ selection.vchMinor ∧ selection.vchMinor < 2 ^ 31

/-- The channel can be found again: a virtual channel is in the lineup, with
the frequency and the modulation that are tuned, and a channel text has the
modulation of the channel map. -/
def TunerView.Restorable (v : TunerView) : Prop :=
  if v.selection.vchResolved then
    ∃ ch ∈ v.db.find? ⟨v.selection.vchMajor, v.selection.vchMinor⟩,
      v.selection.channel = channelText ch.delivery ch.frequencyHz
  else
    v.selection.channel = noneText ∨ v.selection.channel =
      channelText (deliveryForMap v.selection.channelmap) v.selection.tunedFrequencyHz

/-- The calls that set the settings of `v`, in their order; the lock key is set
without a call. -/
def TunerView.tuning (v : TunerView) : SetFrame :=
  if v.selection.vchResolved then .vchannelSet ⟨v.selection.vchMajor, v.selection.vchMinor⟩
  else .channelSet v.selection.channel

def TunerView.calls (v : TunerView) : List SetFrame :=
  [.channelmapSet v.selection.channelmap, v.tuning, .programSet v.selection.program,
    .filterSet (filterReply v.tuner v.db)]

/-- The settings of `saved`, set on a tuner with the settings `v`. -/
def TunerView.restored (saved v : TunerView) : TunerView :=
  saved.calls.foldl SetFrame.through v

/-- The PIDs in a lineup are of 13 bits. -/
def ChannelDb.PidsFit (db : ChannelDb) : Prop :=
  ∀ ch ∈ db.channels, ∀ pid ∈ ch.programPids, pid ≤ 0x1FFF

/-- What the filter of a tuner is computed from. -/
theorem autoFilterTarget_eq (t : Tuner) (db : ChannelDb) :
    autoFilterTarget t db =
      if t.program = 0 ∨ t.selected.frequency = 0 then none
      else
        match db.numbered t.selected.frequency t.program with
        | some sibling => some sibling
        | none => t.selected.virtualChannel.bind db.find? := by
  rw [autoFilterTarget, Selection.selected]
  dsimp only
  cases t.vchResolved <;> rfl

theorem computeAutoFilter_congr {first second : Tuner} (selected : first.selected = second.selected)
    (program : first.program = second.program) (db : ChannelDb) :
    computeAutoFilter first db = computeAutoFilter second db := by
  rw [computeAutoFilter, computeAutoFilter, autoFilterTarget_eq, autoFilterTarget_eq, selected,
    program]

theorem mem_of_autoFilterTarget {t : Tuner} {db : ChannelDb} {target : DvbChannel}
    (found : autoFilterTarget t db = some target) : target ∈ db.channels := by
  rw [autoFilterTarget_eq] at found
  split at found
  · cases found
  · split at found
    · rename_i sibling numbered
      cases found
      exact (List.mem_filter.mp (List.mem_of_find?_eq_some numbered)).1
    · obtain ⟨key, -, there⟩ := Option.bind_eq_some_iff.mp found
      exact (ChannelDb.find?_eq_some_iff.mp there).1

/-- A text that a SET of the filter stores as it is. -/
structure FilterValue (text : CStr) : Prop where
  parsed : (pidFilterParse text).isSome
  nonempty : text ≠ []
  short : text.length < 256

theorem FilterValue.ne_noneText {text : CStr} (filter : FilterValue text) : text ≠ noneText := by
  rintro rfl
  exact absurd filter.parsed (by decide)

theorem filterValue_listed {pids : List UInt16} (some_ : pids ≠ []) (few : pids.length ≤ 4)
    (small : ∀ pid ∈ pids, pid ≤ 0x1FFF) : FilterValue (filterText (pidFilterRanges pids)) := by
  have count := length_pidFilterRanges_le pids
  have ordered : ∀ range ∈ pidFilterRanges pids,
      range.start ≤ range.last ∧ range.last ≤ 0x1FFF := by
    intro range member
    have straight := (pidRuns_covers _).1 range member
    have covered := (pidFilterRanges_covers pids range.last).mp
      ⟨range, member, straight, UInt16.le_refl _⟩
    exact ⟨straight, small _ covered⟩
  have parsed := pidFilterParse_filterText (by
    have most : pidFilterMaxRanges = 32 := rfl
    omega) ordered
  have length := length_entriesText (pidFilterRanges pids)
  cases ranges : pidFilterRanges pids with
  | nil =>
      obtain ⟨pid, member⟩ := List.exists_mem_of_ne_nil pids some_
      obtain ⟨range, listed, -⟩ := (pidFilterRanges_covers pids pid).mpr member
      rw [ranges] at listed
      cases listed
  | cons range rest =>
      rw [ranges] at parsed length count
      rw [entriesText_cons, List.length_append] at length
      refine ⟨by rw [parsed]; rfl, ?_, ?_⟩
      · intro empty
        have nonempty : range.text ≠ [] := by
          unfold PidRange.text
          split <;> exact List.cons_ne_nil _ _
        cases rest <;> simp [filterText, List.intercalate, nonempty] at empty
      · simp only [List.length_cons] at count length
        omega

/-- A GET of the filter gives `none` when there is nothing to stream, or a text
that a SET stores as it is. -/
theorem filterReply_cases {t : Tuner} {db : ChannelDb} (settled : Settled t.toSelection)
    (pids : db.PidsFit) :
    filterReply t db = noneText ∧ computeAutoFilter t db = .noPids ∨
      FilterValue (filterReply t db) := by
  rw [filterReply]
  split
  · cases target : autoFilterTarget t db with
    | none =>
        have full : computeAutoFilter t db = .fullMux := by rw [computeAutoFilter, target]
        rw [full]
        exact .inr ⟨by decide, by decide, by decide⟩
    | some channel =>
        cases found : channel.programPids with
        | nil =>
            have nothing : computeAutoFilter t db = .noPids := by
              rw [computeAutoFilter, target]
              dsimp only
              rw [found]
            rw [nothing]
            exact .inl ⟨rfl, rfl⟩
        | cons pid rest =>
            have listed : computeAutoFilter t db = .listed (pidFilterRanges (pid :: rest)) := by
              rw [computeAutoFilter, target]
              dsimp only
              rw [found]
            have few : (pid :: rest).length ≤ 4 := by
              rw [← found]
              exact List.length_filter_le _ _
            rw [listed]
            refine .inr (filterValue_listed (List.cons_ne_nil _ _) few ?_)
            rw [← found]
            exact pids channel (mem_of_autoFilterTarget target)
  · rename_i given
    obtain ⟨parsed, short⟩ := settled.filter.resolve_left given
    exact .inr ⟨parsed, given, lt_trans short (by decide)⟩

theorem decimalSigned_eq {i : Int} (low : -2 ^ 31 ≤ i) (high : i < 2 ^ 31) :
    decimalSigned i = decimalInt i := by
  rw [decimalSigned, Int32.toInt_ofInt_of_le low high]

/-- A channel text is read as its frequency, whatever its modulation. -/
theorem parseChannelValue_channelText (channelmap : CStr) (delivery : DeliverySystem)
    {freq : UInt32} (tuned : freq ≠ 0) :
    parseChannelValue channelmap (channelText delivery freq) =
      some ⟨freq, reverseResolveFreqInMap channelmap freq⟩ := by
  have value : strtoul (decimal freq.toNat) = freq.toNat := by
    have digits := numeralValue_decimal freq.toNat
    rw [strtoul_of_isNumeral (isNumeral_decimal _) (by rw [digits]; exact freq.toNat_lt), digits]
  have explicit : explicitFrequency channelmap (decimal freq.toNat) =
      some ⟨freq, reverseResolveFreqInMap channelmap freq⟩ := by
    simp only [explicitFrequency, value, UInt32.ofNat_toNat, if_neg tuned]
  cases delivery with
  | atscVsb => exact explicit
  | qam => exact explicit

theorem through_db (v : TunerView) (frame : SetFrame) : (frame.through v).db = v.db := by
  cases frame with
  | channelSet value =>
      simp only [SetFrame.through]
      split
      · rfl
      · split <;> rfl
  | _ => rfl

/-- A SET of the channel leaves the channel map as it is. -/
theorem through_tuning_channelmap (saved v : TunerView) :
    (saved.tuning.through v).selection.channelmap = v.selection.channelmap := by
  rw [TunerView.tuning]
  split
  · rfl
  · simp only [SetFrame.through]
    split
    · rfl
    · split <;> rfl

namespace TunerView

variable {saved v : TunerView}

/-- A raw channel, as it is set with the same channel map. -/
theorem channelRequest_raw (sameMap : v.selection.channelmap = saved.selection.channelmap)
    {delivery : DeliverySystem} (tuned : saved.selection.tunedFrequencyHz ≠ 0)
    (channel : saved.selection.channel =
      channelText delivery saved.selection.tunedFrequencyHz) :
    channelRequest v.selection.channelmap saved.selection.channel =
      some ⟨⟨saved.selection.tunedFrequencyHz,
          reverseResolveFreqInMap v.selection.channelmap saved.selection.tunedFrequencyHz⟩,
        deliveryForMap saved.selection.channelmap⟩ := by
  rw [channelRequest, channel, parseChannelValue_channelText _ _ tuned, Option.map_some, sameMap]

/-- A channel that can be found again is selected again. -/
theorem Restorable.tuning (restorable : saved.Restorable) (settled : Settled saved.selection)
    (sameMap : v.selection.channelmap = saved.selection.channelmap) (sameDb : v.db = saved.db) :
    saved.tuning.valid v = true ∧
      (saved.tuning.through v).selection.selected = saved.selection.selected := by
  rw [Restorable] at restorable
  rw [TunerView.tuning]
  split
  · rename_i resolved
    rw [if_pos resolved] at restorable
    obtain ⟨ch, found, channel⟩ := restorable
    have deref : v.db.deref ⟨saved.selection.vchMajor, saved.selection.vchMinor⟩ = ch := by
      rw [sameDb, ChannelDb.deref, Option.mem_def.mp found, Option.getD_some]
    have key := ChannelDb.find?_key (Option.mem_def.mp found)
    have frequency := (channelText_injective
      (channel.symm.trans (settled.resolved resolved))).2
    constructor
    · simp [SetFrame.valid, sameDb, Option.mem_def.mp found]
    · simp only [SetFrame.through, Selection.write, Selection.selected, deref, resolved]
      rw [channel, frequency, ← key]
      rfl
  · rename_i raw
    rw [if_neg raw] at restorable
    rw [Bool.not_eq_true] at raw
    rcases settled.raw raw with ⟨isNone, zero⟩ | ⟨tuned, delivery, channel⟩
    · simp [SetFrame.valid, SetFrame.through, isNone, Selection.write, Selection.deselected,
        Selection.selected, zero, raw]
    · have notNone : saved.selection.channel ≠ noneText := by
        rw [channel]
        exact channelText_ne_none _ _
      have request := channelRequest_raw sameMap tuned channel
      have same := restorable.resolve_left notNone
      constructor
      · simp [SetFrame.valid, request]
      · simp [SetFrame.through, notNone, request, Selection.write, Selection.selected, raw]
        exact same.symm

/-- What gives the same channel text can be found again. -/
theorem restorable_of_channel (settled : Settled saved.selection)
    (sameMap : v.selection.channelmap = saved.selection.channelmap) (sameDb : v.db = saved.db)
    (valid : saved.tuning.valid v = true)
    (same : (saved.tuning.through v).selection.channel = saved.selection.channel) :
    saved.Restorable := by
  rw [TunerView.tuning] at valid same
  rw [Restorable]
  split
  · rename_i resolved
    rw [if_pos resolved] at valid same
    rw [SetFrame.valid, sameDb, Option.isSome_iff_exists] at valid
    obtain ⟨ch, found⟩ := valid
    refine ⟨ch, found, ?_⟩
    rw [← same]
    simp [SetFrame.through, Selection.write, sameDb, ChannelDb.deref, found]
  · rename_i raw
    rw [if_neg raw] at same
    rw [Bool.not_eq_true] at raw
    rcases settled.raw raw with ⟨isNone, -⟩ | ⟨tuned, delivery, channel⟩
    · exact .inl isNone
    · have notNone : saved.selection.channel ≠ noneText := by
        rw [channel]
        exact channelText_ne_none _ _
      right
      rw [← same]
      simp [SetFrame.through, notNone, channelRequest_raw sameMap tuned channel, Selection.write]

/-- A tuner whose channel and program are those of another one. -/
structure Alike (first second : TunerView) : Prop where
  selected : first.selection.selected = second.selection.selected
  program : first.selection.program = second.selection.program
  db : first.db = second.db

theorem reply_vchannel (v : TunerView) (lockkey : UInt32) :
    v.reply lockkey .vchannel =
      (v.selection.selected.virtualChannel.map fun key =>
        decimalSigned key.major ++ '.' :: decimalSigned key.minor).getD noneText := by
  rw [reply, Selection.selected]
  cases v.selection.vchResolved <;> rfl

theorem filterReply_set {text : CStr} (value : FilterValue text) (v : TunerView)
    (lockkey : UInt32) :
    ((SetFrame.filterSet text).through v).reply lockkey .filter = text := by
  have stored : truncate 256 text = text := List.take_of_length_le (by
    have short := value.short
    omega)
  have given : ¬ (text = noneText ∨ text = []) := not_or.mpr ⟨value.ne_noneText, value.nonempty⟩
  have through : (SetFrame.filterSet text).through v =
      { v with selection := v.selection.write (.filter text) } := by
    simp only [SetFrame.through, if_neg given, stored]
  rw [through]
  exact if_neg value.nonempty

/-- The filter is reported as before once its text has been set. -/
theorem Alike.filterReply (alike : Alike v saved) (settled : Settled saved.selection)
    (pids : saved.db.PidsFit) (lockkey : UInt32) :
    ((SetFrame.filterSet (saved.reply lockkey .filter)).through v).reply lockkey .filter =
      saved.reply lockkey .filter := by
  rcases filterReply_cases (t := saved.tuner) settled pids with ⟨text, nothing⟩ | value
  · have same := @computeAutoFilter_congr v.tuner saved.tuner alike.selected alike.program saved.db
    have cleared : ((SetFrame.filterSet noneText).through v).reply lockkey .filter =
        (computeAutoFilter v.tuner v.db).text := rfl
    have text' : saved.reply lockkey .filter = noneText := text
    rw [text', cleared, alike.db, same, nothing]
    rfl
  · exact filterReply_set value v lockkey

/-- A SET of the filter changes nothing else. -/
theorem through_filterSet (v : TunerView) (text : CStr) :
    ∃ override, (SetFrame.filterSet text).through v =
      { v with selection := v.selection.write (.filter override) } :=
  ⟨_, rfl⟩

/-- All settings are as they were saved. -/
theorem Restorable.reply_restored (restorable : saved.Restorable)
    (settled : Settled saved.selection) (pids : saved.db.PidsFit) (sameDb : v.db = saved.db) (lockkey : UInt32) (leaf : SettingLeaf) :
    (saved.restored v).reply lockkey leaf = saved.reply lockkey leaf := by
  have map := truncate_channelmap settled.channelmap
  obtain ⟨mapped, mapped_eq⟩ :
      ∃ mapped, mapped = (SetFrame.channelmapSet saved.selection.channelmap).through v := ⟨_, rfl⟩
  have sameMap : mapped.selection.channelmap = saved.selection.channelmap := by
    rw [mapped_eq]
    exact map
  have mappedDb : mapped.db = saved.db := by
    rw [mapped_eq]
    exact sameDb
  obtain ⟨tuned, tuned_eq⟩ : ∃ tuned, tuned = saved.tuning.through mapped := ⟨_, rfl⟩
  have selected : tuned.selection.selected = saved.selection.selected := by
    rw [tuned_eq]
    exact (restorable.tuning settled sameMap mappedDb).2
  have tunedMap : tuned.selection.channelmap = saved.selection.channelmap := by
    rw [tuned_eq, through_tuning_channelmap, sameMap]
  have tunedDb : tuned.db = saved.db := by
    rw [tuned_eq, through_db, mappedDb]
  have alike : Alike ((SetFrame.programSet saved.selection.program).through tuned) saved :=
    ⟨selected, rfl, tunedDb⟩
  have whole : saved.restored v = (SetFrame.filterSet (saved.reply lockkey .filter)).through
      ((SetFrame.programSet saved.selection.program).through tuned) := by
    rw [tuned_eq, mapped_eq]
    rfl
  rw [whole]
  by_cases isFilter : leaf = .filter
  · rw [isFilter]
    exact alike.filterReply settled pids lockkey
  · obtain ⟨override, stored⟩ := through_filterSet
      ((SetFrame.programSet saved.selection.program).through tuned) (saved.reply lockkey .filter)
    rw [stored]
    cases leaf with
    | channelmap => exact tunedMap
    | channel => exact congrArg Selected.channel selected
    | vchannel =>
        rw [reply_vchannel, reply_vchannel, ← selected]
        rfl
    | program => rfl
    | filter => exact absurd rfl isFilter
    | lockkey => rfl

/-- What is restored completely could be found again. -/
theorem restorable_of_restored (settled : Settled saved.selection) (sameDb : v.db = saved.db)
    {lockkey : UInt32}
    (valid : saved.tuning.valid
      ((SetFrame.channelmapSet saved.selection.channelmap).through v) = true)
    (same : (saved.restored v).reply lockkey .channel = saved.reply lockkey .channel) :
    saved.Restorable := by
  exact restorable_of_channel (v := (SetFrame.channelmapSet saved.selection.channelmap).through v)
    settled (truncate_channelmap settled.channelmap) sameDb valid same

end TunerView

end HdhrEmu
