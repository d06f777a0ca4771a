import HdhrEmu.ChannelMap
import HdhrEmu.Lib.RowTable
import Mathlib.Data.List.Perm.Subperm

/-!
# Channel maps as tables of channels and frequencies

Four walks read a range table: a lookup in each direction, a count, and an
enumeration by index.  Each of them is an operation on one list, that of all
channels with their frequencies in the order of the ranges.
-/

namespace HdhrEmu

namespace ChannelMapRange

/-- The frequency of a channel inside a range, without a bound. -/
def frequency (range : ChannelMapRange) (channel : Int) : Nat :=
  range.baseFreqHz.toNat + (channel - range.channelStart).toNat * range.spacingHz.toNat

/-- The channels of a range with their frequencies, in order. -/
def plan (range : ChannelMapRange) : List (Int × UInt32) :=
  range.channels.map fun channel => (channel, range.freqOf channel)

/-- The entry at the end of a table. -/
def terminator : ChannelMapRange :=
  ⟨0, 0, 0, 0⟩

end ChannelMapRange

/-- A table of positive and disjoint ranges, with frequencies that are apart;
its terminator is no entry. -/
structure RangeTable where
  entries : List ChannelMapRange
  positive : ∀ range ∈ entries, 0 < range.channelStart ∧ range.channelStart ≤ range.channelEnd
  disjoint : entries.Pairwise fun first second =>
    first.channelEnd < second.channelStart ∨ second.channelEnd < first.channelStart
  spaced : ∀ range ∈ entries, range.spacingHz ≠ 0
  /-- The counter of a loop over a range and the frequencies stay within 32 bits. -/
  fits : ∀ range ∈ entries,
    range.channelEnd + 1 < 2 ^ 31 ∧ range.frequency range.channelEnd < 2 ^ 32
  apart : (entries.flatMap fun range => range.channels.map range.frequency).Nodup

namespace RangeTable

/-- The table as it stands in memory. -/
def ranges (table : RangeTable) : List ChannelMapRange :=
  table.entries ++ [.terminator]

/-- All channels with their frequencies. -/
def plan (table : RangeTable) : List (Int × UInt32) :=
  table.entries.flatMap ChannelMapRange.plan

end RangeTable

namespace ChannelMapRange

variable {range : ChannelMapRange} {channel : Int}

theorem mem_channels :
    channel ∈ range.channels ↔ range.channelStart ≤ channel ∧ channel ≤ range.channelEnd := by
  rw [channels, List.mem_map]
  constructor
  · rintro ⟨offset, member, rfl⟩
    rw [List.mem_range] at member
    omega
  · intro inside
    refine ⟨(channel - range.channelStart).toNat, ?_, by omega⟩
    rw [List.mem_range]
    omega

theorem nodup_channels (range : ChannelMapRange) : range.channels.Nodup := by
  refine List.Nodup.map ?_ List.nodup_range
  intro first second same
  exact Int.ofNat.inj (Int.add_left_cancel same)

theorem length_plan (range : ChannelMapRange) :
    range.plan.length = (range.channelEnd - range.channelStart + 1).toNat := by
  rw [plan, List.length_map, channels, List.length_map, List.length_range]

theorem frequency_bounds (inside : channel ∈ range.channels) :
    range.baseFreqHz.toNat ≤ range.frequency channel ∧
      range.frequency channel ≤ range.frequency range.channelEnd := by
  obtain ⟨-, most⟩ := mem_channels.mp inside
  refine ⟨Nat.le_add_right _ _, ?_⟩
  apply Nat.add_le_add_left
  apply Nat.mul_le_mul_right
  omega

theorem toNat_ofInt (offset : Nat) : (UInt32.ofInt offset).toNat = offset % 2 ^ 32 := by
  have cast : (offset : Int) % 2 ^ 32 = (offset % 2 ^ 32 : Nat) := by omega
  rw [UInt32.ofInt, UInt32.toNat_ofNat', cast, Int.toNat_natCast, Nat.mod_mod]

/-- The arithmetic of the program is exact if the last frequency fits. -/
theorem toNat_freqOf (fits : range.frequency range.channelEnd < 2 ^ 32)
    (inside : channel ∈ range.channels) : (range.freqOf channel).toNat = range.frequency channel := by
  obtain ⟨least, most⟩ := mem_channels.mp inside
  obtain ⟨offset, same⟩ := Int.eq_ofNat_of_zero_le (Int.sub_nonneg_of_le least)
  have le := (frequency_bounds inside).2
  have small : range.baseFreqHz.toNat + offset * range.spacingHz.toNat < 2 ^ 32 := by
    have exact_ := Nat.lt_of_le_of_lt le fits
    rwa [frequency, same, Int.toNat_natCast] at exact_
  rw [freqOf, frequency, same, UInt32.toNat_add, UInt32.toNat_mul, toNat_ofInt, Int.toNat_natCast,
    Nat.mod_mul_mod, Nat.add_mod_mod, Nat.mod_eq_of_lt small]

theorem search_plan_fst (range : ChannelMapRange) (channel : Int) :
    RowTable.search Prod.fst Prod.snd range.plan channel =
      if range.channelStart ≤ channel ∧ channel ≤ range.channelEnd then
        some (range.freqOf channel) else none := by
  have columns : range.plan.map Prod.fst = range.channels := by
    rw [plan, List.map_map]
    exact List.map_id _
  split
  · rename_i inside
    have row : (channel, range.freqOf channel) ∈ range.plan :=
      List.mem_map_of_mem (mem_channels.mpr inside)
    exact RowTable.search_of_mem (columns ▸ range.nodup_channels) row
  · rename_i outside
    apply RowTable.search_eq_none
    rintro row member rfl
    apply outside
    rw [← mem_channels, ← columns]
    exact List.mem_map_of_mem member

/-- The inner loop of `channel_map_freq_to_channel`. -/
theorem search_plan_snd (range : ChannelMapRange) (freq : UInt32) :
    RowTable.search Prod.snd Prod.fst range.plan freq =
      range.channels.find? fun channel => range.freqOf channel == freq := by
  rw [RowTable.search, plan, List.find?_map, Option.map_map]
  exact Option.map_id'

/-- The frequencies of one range are all below those of the other. -/
def BandsApart (first second : ChannelMapRange) : Prop :=
  first.frequency first.channelEnd < second.baseFreqHz.toNat ∨
    second.frequency second.channelEnd < first.baseFreqHz.toNat

instance : DecidableRel BandsApart :=
  fun _ _ => inferInstanceAs (Decidable (_ ∨ _))

theorem nodup_frequencies (spaced : range.spacingHz ≠ 0) :
    (range.channels.map range.frequency).Nodup := by
  apply List.Nodup.map_on _ range.nodup_channels
  intro first inFirst second inSecond same
  rw [mem_channels] at inFirst inSecond
  have positive : 0 < range.spacingHz.toNat :=
    Nat.pos_of_ne_zero fun zero => spaced (UInt32.toNat_inj.mp zero)
  have offsets := Nat.mul_right_cancel positive (Nat.add_left_cancel same)
  omega

/-- Ranges with separate bands have no frequency in common. -/
theorem nodup_frequencies_of_bands {entries : List ChannelMapRange}
    (spaced : ∀ range ∈ entries, range.spacingHz ≠ 0) (bands : entries.Pairwise BandsApart) :
    (entries.flatMap fun range => range.channels.map range.frequency).Nodup := by
  rw [List.nodup_flatMap]
  refine ⟨fun range among => nodup_frequencies (spaced range among), bands.imp ?_⟩
  intro first second apart freq inFirst inSecond
  obtain ⟨channel, inside, rfl⟩ := List.mem_map.mp inFirst
  obtain ⟨other, insideOther, same⟩ := List.mem_map.mp inSecond
  have bounds := frequency_bounds inside
  have otherBounds := frequency_bounds insideOther
  rcases apart with below | above <;> omega

end ChannelMapRange

section Walks

variable {entries : List ChannelMapRange}

/-- The walks do not stop before the terminator. -/
def Live (entries : List ChannelMapRange) : Prop :=
  ∀ range ∈ entries, range.channelEnd ≠ 0 ∧ range.channelStart ≤ range.channelEnd

theorem rangeChannelToFreq_eq (live : Live entries) (channel : Int) :
    rangeChannelToFreq (entries ++ [.terminator]) channel =
      (RowTable.search Prod.fst Prod.snd (entries.flatMap ChannelMapRange.plan) channel).getD 0 := by
  induction entries with
  | nil => rfl
  | cons range rest ih =>
      obtain ⟨first, others⟩ := List.forall_mem_cons.mp live
      rw [List.cons_append, rangeChannelToFreq, if_neg first.1, List.flatMap_cons,
        RowTable.search_append, ChannelMapRange.search_plan_fst]
      split
      · rfl
      · rw [Option.none_or]
        exact ih others

theorem rangeFreqToChannel_eq (live : Live entries) (freq : UInt32) :
    rangeFreqToChannel (entries ++ [.terminator]) freq =
      (RowTable.search Prod.snd Prod.fst (entries.flatMap ChannelMapRange.plan) freq).getD 0 := by
  induction entries with
  | nil => rfl
  | cons range rest ih =>
      obtain ⟨first, others⟩ := List.forall_mem_cons.mp live
      rw [List.cons_append, rangeFreqToChannel, if_neg first.1, List.flatMap_cons,
        RowTable.search_append, ChannelMapRange.search_plan_snd]
      split
      · rename_i channel found
        rw [found]
        rfl
      · rename_i none_
        rw [none_, Option.none_or]
        exact ih others

theorem rangeCount_eq (live : Live entries) :
    rangeCount (entries ++ [.terminator]) = (entries.flatMap ChannelMapRange.plan).length := by
  induction entries with
  | nil => rfl
  | cons range rest ih =>
      obtain ⟨first, others⟩ := List.forall_mem_cons.mp live
      rw [List.cons_append, rangeCount, if_neg first.1, ih others, List.flatMap_cons,
        List.length_append, ChannelMapRange.length_plan]
      omega

theorem rangeNth_eq (live : Live entries) (index : Nat) :
    rangeNth (entries ++ [.terminator]) index =
      (entries.flatMap ChannelMapRange.plan)[index]? := by
  induction entries generalizing index with
  | nil => rfl
  | cons range rest ih =>
      obtain ⟨first, others⟩ := List.forall_mem_cons.mp live
      have length := range.length_plan
      rw [List.cons_append, rangeNth, if_neg first.1, List.flatMap_cons]
      dsimp only
      split
      · rename_i inside
        have bound : index < range.plan.length := by omega
        rw [List.getElem?_append_left bound, ChannelMapRange.plan, ChannelMapRange.channels,
          List.map_map, List.getElem?_map, List.getElem?_range (by omega)]
        rfl
      · rename_i beyond
        have rest_ : (index : Int) - (range.channelEnd - range.channelStart + 1) =
            (index - range.plan.length : Nat) := by
          omega
        rw [List.getElem?_append_right (by omega), rest_]
        exact ih others _

end Walks

namespace RangeTable

theorem live (table : RangeTable) : Live table.entries := by
  intro range member
  have positive := table.positive range member
  exact ⟨by omega, positive.2⟩

variable (table : RangeTable)

/-- The table covers the channel. -/
def Covers (channel : Int) : Prop :=
  ∃ range ∈ table.entries, range.channelStart ≤ channel ∧ channel ≤ range.channelEnd

/-- The table has the channel at this frequency. -/
def Carries (channel : Int) (freq : UInt32) : Prop :=
  ∃ range ∈ table.entries, range.channelStart ≤ channel ∧ channel ≤ range.channelEnd ∧
    range.frequency channel = freq.toNat

variable {table}

theorem mem_plan {channel : Int} {freq : UInt32} :
    (channel, freq) ∈ table.plan ↔ table.Carries channel freq := by
  constructor
  · intro member
    obtain ⟨range, among, row⟩ := List.mem_flatMap.mp member
    obtain ⟨_, inside, same⟩ := List.mem_map.mp row
    cases same
    obtain ⟨least, most⟩ := ChannelMapRange.mem_channels.mp inside
    exact ⟨range, among, least, most,
      (ChannelMapRange.toNat_freqOf (table.fits range among).2 inside).symm⟩
  · rintro ⟨range, among, least, most, exact_⟩
    have inside := ChannelMapRange.mem_channels.mpr ⟨least, most⟩
    have same : range.freqOf channel = freq := by
      rw [← UInt32.toNat_inj, ← exact_]
      exact ChannelMapRange.toNat_freqOf (table.fits range among).2 inside
    exact List.mem_flatMap.mpr ⟨range, among, List.mem_map.mpr ⟨channel, inside, by rw [same]⟩⟩

theorem covers_iff {channel : Int} : table.Covers channel ↔ ∃ freq, (channel, freq) ∈ table.plan := by
  constructor
  · rintro ⟨range, among, inside⟩
    exact ⟨range.freqOf channel, List.mem_flatMap.mpr
      ⟨range, among, List.mem_map_of_mem (ChannelMapRange.mem_channels.mpr inside)⟩⟩
  · rintro ⟨freq, member⟩
    obtain ⟨range, among, least, most, -⟩ := mem_plan.mp member
    exact ⟨range, among, least, most⟩

theorem map_fst_plan (table : RangeTable) :
    table.plan.map Prod.fst = table.entries.flatMap ChannelMapRange.channels := by
  rw [plan, List.map_flatMap]
  congr 1
  ext1 range
  rw [ChannelMapRange.plan, List.map_map]
  exact List.map_id _

/-- No channel comes twice, since the ranges are disjoint. -/
theorem nodup_channels (table : RangeTable) : (table.plan.map Prod.fst).Nodup := by
  rw [map_fst_plan, List.nodup_flatMap]
  refine ⟨fun range _ => range.nodup_channels, table.disjoint.imp ?_⟩
  intro first second apart channel inFirst inSecond
  rw [ChannelMapRange.mem_channels] at inFirst inSecond
  omega

/-- No frequency comes twice, since there is no overflow. -/
theorem nodup_frequencies (table : RangeTable) : (table.plan.map Prod.snd).Nodup := by
  apply List.Nodup.of_map UInt32.toNat
  have exact_ : (table.plan.map Prod.snd).map UInt32.toNat =
      table.entries.flatMap fun range => range.channels.map range.frequency := by
    rw [plan, List.map_flatMap, List.map_flatMap]
    apply List.flatMap_congr
    intro range among
    rw [ChannelMapRange.plan, List.map_map, List.map_map]
    apply List.map_congr_left
    intro channel inside
    exact ChannelMapRange.toNat_freqOf (table.fits range among).2 inside
  rw [exact_]
  exact table.apart

theorem length_le_of_nodup {list : List Nat} (nodup : list.Nodup) {bound : Nat}
    (small : ∀ n ∈ list, n < bound) : list.length ≤ bound := by
  have within : list.Subperm (List.range bound) :=
    List.subperm_of_subset nodup fun n member => List.mem_range.mpr (small n member)
  have le := within.length_le
  rwa [List.length_range] at le

/-- The number of channels is an `int`: they are different positive ones. -/
theorem length_plan_lt (table : RangeTable) : table.plan.length < 2 ^ 31 := by
  have bounds (channel : Int) (member : channel ∈ table.plan.map Prod.fst) :
      0 < channel ∧ channel + 1 < 2 ^ 31 := by
    rw [map_fst_plan] at member
    obtain ⟨range, among, inside⟩ := List.mem_flatMap.mp member
    rw [ChannelMapRange.mem_channels] at inside
    have positive := table.positive range among
    have fits := table.fits range among
    omega
  have nodup : ((table.plan.map Prod.fst).map Int.toNat).Nodup := by
    apply List.Nodup.map_on _ table.nodup_channels
    intro first inFirst second inSecond same
    have positive := bounds first inFirst
    omega
  have le : ((table.plan.map Prod.fst).map Int.toNat).length ≤ 2 ^ 31 - 1 := by
    apply length_le_of_nodup nodup
    intro n member
    obtain ⟨channel, inside, rfl⟩ := List.mem_map.mp member
    have bound := bounds channel inside
    omega
  rw [List.length_map, List.length_map] at le
  omega

end RangeTable

/-- The four walks over a map agree with its table. -/
structure WalksAgree (map : ChannelMapDef) (table : RangeTable) : Prop where
  indices : ∀ index, (channelMapNth map index).isSome ↔ 0 ≤ index ∧ index < channelMapCount map
  once : ∀ channel, table.Covers channel →
    ∃! index, (channelMapNth map index).map Prod.fst = some channel
  carried : ∀ index channel freq, channelMapNth map index = some (channel, freq) →
    table.Carries channel freq ∧ channelMapChannelToFreq map channel = freq ∧
      channelMapFreqToChannel map freq = channel
  noChannel : ∀ channel, ¬ table.Covers channel → channelMapChannelToFreq map channel = 0
  noFrequency : ∀ freq, (∀ channel, ¬ table.Carries channel freq) →
    channelMapFreqToChannel map freq = 0
  countFits : channelMapCount map < 2 ^ 31

section Agree

variable {map : ChannelMapDef} {table : RangeTable}

theorem channelMapCount_eq (same : map.ranges = table.ranges) :
    channelMapCount map = table.plan.length := by
  rw [channelMapCount, same]
  exact rangeCount_eq table.live

theorem channelMapNth_eq (same : map.ranges = table.ranges) (place : Nat) :
    channelMapNth map place = table.plan[place]? := by
  rw [channelMapNth, if_neg (by omega), same]
  exact rangeNth_eq table.live place

/-- An index at which there is a channel is the place of a row. -/
theorem channelMapNth_some (same : map.ranges = table.ranges) {index : Int}
    {row : Int × UInt32} (found : channelMapNth map index = some row) :
    ∃ place : Nat, index = place ∧ table.plan[place]? = some row := by
  have notNegative : 0 ≤ index := by
    by_contra negative
    rw [channelMapNth, if_pos (by omega)] at found
    cases found
  obtain ⟨place, rfl⟩ := Int.eq_ofNat_of_zero_le notNegative
  rw [channelMapNth_eq same] at found
  exact ⟨place, rfl, found⟩

theorem walksAgree (same : map.ranges = table.ranges) : WalksAgree map table where
  indices := by
    intro index
    rw [channelMapCount_eq same]
    constructor
    · intro some_
      obtain ⟨row, found⟩ := Option.isSome_iff_exists.mp some_
      obtain ⟨place, rfl, at_⟩ := channelMapNth_some same found
      have bound := (List.getElem?_eq_some_iff.mp at_).1
      omega
    · rintro ⟨notNegative, bound⟩
      obtain ⟨place, rfl⟩ := Int.eq_ofNat_of_zero_le notNegative
      rw [channelMapNth_eq same, List.getElem?_eq_getElem (by omega)]
      rfl
  once := by
    intro channel covered
    obtain ⟨freq, member⟩ := RangeTable.covers_iff.mp covered
    obtain ⟨place, here, unique⟩ := RowTable.existsUnique_place table.nodup_channels member
    refine ⟨place, ?_, ?_⟩
    · show (channelMapNth map place).map Prod.fst = some channel
      rw [channelMapNth_eq same]
      exact here
    · intro index there
      obtain ⟨row, found, first⟩ := Option.map_eq_some_iff.mp there
      obtain ⟨other, rfl, at_⟩ := channelMapNth_some same found
      have places : other = place := unique other (by
        show (table.plan[other]?).map Prod.fst = some channel
        rw [at_, Option.map_some, first])
      rw [places]
  carried := by
    intro index channel freq found
    obtain ⟨place, rfl, at_⟩ := channelMapNth_some same found
    have member := List.mem_of_getElem? at_
    refine ⟨RangeTable.mem_plan.mp member, ?_, ?_⟩
    · have row : RowTable.search Prod.fst Prod.snd table.plan channel = some freq :=
        RowTable.search_of_mem table.nodup_channels member
      rw [channelMapChannelToFreq, same, RangeTable.ranges, rangeChannelToFreq_eq table.live]
      exact congrArg (Option.getD · 0) row
    · have row : RowTable.search Prod.snd Prod.fst table.plan freq = some channel :=
        RowTable.search_of_mem table.nodup_frequencies member
      rw [channelMapFreqToChannel, same, RangeTable.ranges, rangeFreqToChannel_eq table.live]
      exact congrArg (Option.getD · 0) row
  noChannel := by
    intro channel uncovered
    rw [channelMapChannelToFreq, same, RangeTable.ranges, rangeChannelToFreq_eq table.live,
      RowTable.search_eq_none]
    · rfl
    · rintro ⟨_, freq⟩ member rfl
      exact uncovered (RangeTable.covers_iff.mpr ⟨freq, member⟩)
  noFrequency := by
    intro freq nowhere
    rw [channelMapFreqToChannel, same, RangeTable.ranges, rangeFreqToChannel_eq table.live,
      RowTable.search_eq_none]
    · rfl
    · rintro ⟨channel, _⟩ member rfl
      exact nowhere channel (RangeTable.mem_plan.mp member)
  countFits := by
    rw [channelMapCount_eq same]
    exact_mod_cast table.length_plan_lt

end Agree

theorem maps_positive : ∀ map ∈ maps, ∀ range ∈ map.ranges.dropLast,
    (0 < range.channelStart ∧ range.channelStart ≤ range.channelEnd) ∧ range.spacingHz ≠ 0 ∧
      range.channelEnd + 1 < 2 ^ 31 ∧ range.frequency range.channelEnd < 2 ^ 32 := by
  decide

theorem maps_disjoint : ∀ map ∈ maps, map.ranges.dropLast.Pairwise fun first second =>
    first.channelEnd < second.channelStart ∨ second.channelEnd < first.channelStart := by
  decide

theorem maps_bands : ∀ map ∈ maps, map.ranges.dropLast.Pairwise ChannelMapRange.BandsApart := by
  decide

theorem maps_terminated : ∀ map ∈ maps, map.ranges = map.ranges.dropLast ++ [.terminator] := by
  intro map member
  simp only [maps, List.mem_cons, List.not_mem_nil, or_false] at member
  rcases member with rfl | rfl | rfl | rfl | rfl <;> rfl

/-- A built-in table is such a table. -/
def builtin (map : { map // map ∈ maps }) : RangeTable where
  entries := map.1.ranges.dropLast
  positive := fun range among => (maps_positive map.1 map.2 range among).1
  disjoint := maps_disjoint map.1 map.2
  spaced := fun range among => (maps_positive map.1 map.2 range among).2.1
  fits := fun range among => (maps_positive map.1 map.2 range among).2.2
  apart := ChannelMapRange.nodup_frequencies_of_bands
    (fun range among => (maps_positive map.1 map.2 range among).2.1) (maps_bands map.1 map.2)

theorem atscFreqTable_nodup :
    (atscFreqTable.map Prod.fst).Nodup ∧ (atscFreqTable.map Prod.snd).Nodup := by
  decide

/-- Both lookups of the control server search one table, whatever map it is. -/
theorem exists_rows (mapName : CStr) :
    ∃ rows : List (Int × UInt32), (rows.map Prod.fst).Nodup ∧ (rows.map Prod.snd).Nodup ∧
      (∀ channel, resolveChannelInMap mapName channel =
        (RowTable.search Prod.fst Prod.snd rows channel).getD 0) ∧
      ∀ freq, reverseResolveFreqInMap mapName freq =
        (RowTable.search Prod.snd Prod.fst rows freq).getD 0 := by
  unfold resolveChannelInMap reverseResolveFreqInMap
  split
  · exact ⟨atscFreqTable, atscFreqTable_nodup.1, atscFreqTable_nodup.2,
      fun _ => rfl, fun _ => rfl⟩
  · cases found : channelMapFind mapName with
    | none => exact ⟨[], List.nodup_nil, List.nodup_nil, fun _ => rfl, fun _ => rfl⟩
    | some map =>
        have member := List.mem_of_find?_eq_some found
        let table := builtin ⟨map, member⟩
        have same : map.ranges = table.ranges := maps_terminated map member
        refine ⟨table.plan, table.nodup_channels, table.nodup_frequencies, ?_, ?_⟩
        · intro channel
          dsimp only
          rw [channelMapChannelToFreq, same]
          exact rangeChannelToFreq_eq table.live channel
        · intro freq
          dsimp only
          rw [channelMapFreqToChannel, same]
          exact rangeFreqToChannel_eq table.live freq

/-- A frequency that is found in a map is the one of the channel it is found at. -/
theorem resolve_reverseResolve {mapName : CStr} {freq : UInt32}
    (found : reverseResolveFreqInMap mapName freq ≠ 0) :
    resolveChannelInMap mapName (reverseResolveFreqInMap mapName freq) = freq := by
  obtain ⟨rows, nodup, -, resolve, reverse⟩ := exists_rows mapName
  rw [reverse] at found ⊢
  rw [resolve, RowTable.search_back nodup 0 found]

/-- A channel that has a frequency in a map is the one found for it. -/
theorem reverseResolve_resolve {mapName : CStr} {channel : Int}
    (found : resolveChannelInMap mapName channel ≠ 0) :
    reverseResolveFreqInMap mapName (resolveChannelInMap mapName channel) = channel := by
  obtain ⟨rows, -, nodup, resolve, reverse⟩ := exists_rows mapName
  rw [resolve] at found ⊢
  rw [reverse, RowTable.search_back nodup 0 found]

/-- The walks over a channel map enumerate its channels, look them up and look
them up back, for all tables of this kind; the built-in ones are of it. -/
theorem channel_map_walks :
    (∀ (table : RangeTable) name delivery, WalksAgree ⟨name, table.ranges, delivery⟩ table) ∧
      ∃ tables : List RangeTable, maps.map ChannelMapDef.ranges = tables.map RangeTable.ranges := by
  refine ⟨fun table name delivery => walksAgree rfl, maps.attach.map builtin, ?_⟩
  rw [List.map_map]
  conv_lhs => rw [← List.attach_map_subtype_val maps, List.map_map]
  apply List.map_congr_left
  intro map _
  exact maps_terminated map.1 map.2

end HdhrEmu
