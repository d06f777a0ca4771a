import HdhrEmu.Lib.CString

/-!
# Channel maps

Five channel maps are range tables; `"us-bcast"` is a table of its own.  The
three lookups of the control server hide that split.
-/

namespace HdhrEmu

inductive DeliverySystem
  | atscVsb
  | qam
  deriving DecidableEq, Repr

structure ChannelMapRange where
  channelStart : Int
  channelEnd : Int
  baseFreqHz : UInt32
  spacingHz : UInt32

structure ChannelMapDef where
  name : CStr
  ranges : List ChannelMapRange
  delivery : DeliverySystem

def rangeUsCable : List ChannelMapRange :=
  [⟨2, 4, 57000000, 6000000⟩, ⟨5, 6, 79000000, 6000000⟩, ⟨7, 13, 177000000, 6000000⟩,
    ⟨14, 22, 123000000, 6000000⟩, ⟨23, 94, 219000000, 6000000⟩,
    ⟨95, 99, 93000000, 6000000⟩, ⟨100, 158, 651000000, 6000000⟩, ⟨0, 0, 0, 0⟩]

def rangeUsHrc : List ChannelMapRange :=
  [⟨2, 4, 55752700, 6000300⟩, ⟨5, 6, 79753900, 6000300⟩, ⟨7, 13, 175758700, 6000300⟩,
    ⟨14, 22, 121756000, 6000300⟩, ⟨23, 94, 217760800, 6000300⟩,
    ⟨95, 99, 91754500, 6000300⟩, ⟨100, 158, 649782400, 6000300⟩, ⟨0, 0, 0, 0⟩]

def rangeUsIrc : List ChannelMapRange :=
  [⟨2, 4, 57012500, 6000000⟩, ⟨5, 6, 81012500, 6000000⟩, ⟨7, 13, 177012500, 6000000⟩,
    ⟨14, 22, 123012500, 6000000⟩, ⟨23, 41, 219012500, 6000000⟩,
    ⟨42, 42, 333025000, 6000000⟩, ⟨43, 94, 339012500, 6000000⟩,
    ⟨95, 97, 93012500, 6000000⟩, ⟨98, 99, 111025000, 6000000⟩,
    ⟨100, 158, 651012500, 6000000⟩, ⟨0, 0, 0, 0⟩]

def rangeKrCable : List ChannelMapRange :=
  [⟨2, 4, 57000000, 6000000⟩, ⟨5, 6, 79000000, 6000000⟩, ⟨7, 13, 177000000, 6000000⟩,
    ⟨14, 22, 123000000, 6000000⟩, ⟨23, 153, 219000000, 6000000⟩, ⟨0, 0, 0, 0⟩]

def rangeKrBcast : List ChannelMapRange :=
  [⟨2, 4, 57000000, 6000000⟩, ⟨5, 6, 79000000, 6000000⟩, ⟨7, 13, 177000000, 6000000⟩,
    ⟨14, 36, 473000000, 6000000⟩, ⟨0, 0, 0, 0⟩]

def maps : List ChannelMapDef :=
  [⟨"us-cable".toList, rangeUsCable, .qam⟩, ⟨"us-hrc".toList, rangeUsHrc, .qam⟩,
    ⟨"us-irc".toList, rangeUsIrc, .qam⟩, ⟨"kr-cable".toList, rangeKrCable, .qam⟩,
    ⟨"kr-bcast".toList, rangeKrBcast, .atscVsb⟩]

def usBcast : CStr := "us-bcast".toList

/-- The names a client can put into `/tunerN/channelmap`. -/
def supportedMaps : List CStr :=
  usBcast :: maps.map ChannelMapDef.name

def channelMapFind (name : CStr) : Option ChannelMapDef :=
  maps.find? fun map => map.name == name

/-- The check of a `channelmap` SET. -/
def channelmapSupported (value : CStr) : Bool :=
  value == usBcast || (channelMapFind value).isSome

/-- The frequency of a channel inside a range, in 32-bit arithmetic. -/
def ChannelMapRange.freqOf (range : ChannelMapRange) (channel : Int) : UInt32 :=
  range.baseFreqHz + UInt32.ofInt (channel - range.channelStart) * range.spacingHz

/-- The walk over a table stops at the first entry with `channelEnd = 0`. -/
def rangeChannelToFreq : List ChannelMapRange → Int → UInt32
  | [], _ => 0
  | range :: rest, channel =>
      if range.channelEnd = 0 then 0
      else if range.channelStart ≤ channel ∧ channel ≤ range.channelEnd then
        range.freqOf channel
      else rangeChannelToFreq rest channel

def channelMapChannelToFreq (map : ChannelMapDef) (channel : Int) : UInt32 :=
  rangeChannelToFreq map.ranges channel

/-- The channels of a range, in order. -/
def ChannelMapRange.channels (range : ChannelMapRange) : List Int :=
  (List.range (range.channelEnd - range.channelStart + 1).toNat).map
    fun (offset : Nat) => range.channelStart + offset

def rangeFreqToChannel : List ChannelMapRange → UInt32 → Int
  | [], _ => 0
  | range :: rest, freq =>
      if range.channelEnd = 0 then 0
      else
        match range.channels.find? fun channel => range.freqOf channel == freq with
        | some channel => channel
        | none => rangeFreqToChannel rest freq

def channelMapFreqToChannel (map : ChannelMapDef) (freq : UInt32) : Int :=
  rangeFreqToChannel map.ranges freq

def rangeCount : List ChannelMapRange → Int
  | [] => 0
  | range :: rest =>
      if range.channelEnd = 0 then 0
      else range.channelEnd - range.channelStart + 1 + rangeCount rest

def channelMapCount (map : ChannelMapDef) : Int :=
  rangeCount map.ranges

def rangeNth : List ChannelMapRange → Int → Option (Int × UInt32)
  | [], _ => none
  | range :: rest, index =>
      if range.channelEnd = 0 then none
      else
        let span := range.channelEnd - range.channelStart + 1
        if index < span then
          let channel := range.channelStart + index
          some (channel, range.freqOf channel)
        else rangeNth rest (index - span)

/-- `channel_map_nth`, with `*channel_out` and `*freq_out` when it returns true. -/
def channelMapNth (map : ChannelMapDef) (index : Int) : Option (Int × UInt32) :=
  if index < 0 then none else rangeNth map.ranges index

def atscFreqTable : List (Int × UInt32) :=
  [(2, 57000000), (3, 63000000), (4, 69000000), (5, 79000000), (6, 85000000),
    (7, 177000000), (8, 183000000), (9, 189000000), (10, 195000000), (11, 201000000),
    (12, 207000000), (13, 213000000), (14, 473000000), (15, 479000000), (16, 485000000),
    (17, 491000000), (18, 497000000), (19, 503000000), (20, 509000000), (21, 515000000),
    (22, 521000000), (23, 527000000), (24, 533000000), (25, 539000000), (26, 545000000),
    (27, 551000000), (28, 557000000), (29, 563000000), (30, 569000000), (31, 575000000),
    (32, 581000000), (33, 587000000), (34, 593000000), (35, 599000000), (36, 605000000)]

def atscFreqToChannel (freq : UInt32) : Int :=
  ((atscFreqTable.find? fun entry => entry.2 == freq).map Prod.fst).getD 0

def atscChannelToFreq (channel : Int) : UInt32 :=
  ((atscFreqTable.find? fun entry => entry.1 == channel).map Prod.snd).getD 0

def resolveChannelInMap (mapName : CStr) (channel : Int) : UInt32 :=
  if mapName = usBcast then atscChannelToFreq channel
  else
    match channelMapFind mapName with
    | some map => channelMapChannelToFreq map channel
    | none => 0

def reverseResolveFreqInMap (mapName : CStr) (freq : UInt32) : Int :=
  if mapName = usBcast then atscFreqToChannel freq
  else
    match channelMapFind mapName with
    | some map => channelMapFreqToChannel map freq
    | none => 0

def deliveryForMap (mapName : CStr) : DeliverySystem :=
  if mapName = usBcast then .atscVsb
  else
    match channelMapFind mapName with
    | some map => map.delivery
    | none => .atscVsb

/-- The word in front of the frequency in `t->channel` and after `lock=`. -/
def DeliverySystem.word : DeliverySystem → CStr
  | .atscVsb => "8vsb".toList
  | .qam => "qam".toList

/-- `snprintf("%s:%u", ...)` of a delivery word and a frequency. -/
def channelText (delivery : DeliverySystem) (freq : UInt32) : CStr :=
  delivery.word ++ ':' :: CString.decimal freq.toNat

theorem DeliverySystem.word_injective {first second : DeliverySystem}
    (same : first.word = second.word) : first = second := by
  cases first <;> cases second <;> first | rfl | cases same

/-- The channel text determines both of its parts. -/
theorem channelText_injective {first second : DeliverySystem} {firstFreq secondFreq : UInt32}
    (same : channelText first firstFreq = channelText second secondFreq) :
    first = second ∧ firstFreq = secondFreq := by
  have delivery : first = second := by
    cases first <;> cases second <;> first | rfl | cases same
  subst delivery
  refine ⟨rfl, UInt32.toNat_inj.mp (CString.decimal_injective ?_)⟩
  simpa [channelText] using same

theorem channelText_ne_none (delivery : DeliverySystem) (freq : UInt32) :
    channelText delivery freq ≠ "none".toList := by
  cases delivery <;> intro same <;> cases same

/-- A nonzero frequency comes from a range in front of the terminator. -/
theorem rangeChannelToFreq_covered {ranges : List ChannelMapRange} {channel : Int}
    (covered : rangeChannelToFreq ranges channel ≠ 0) :
    ∃ range ∈ ranges, range.channelEnd ≠ 0 ∧
      range.channelStart ≤ channel ∧ channel ≤ range.channelEnd := by
  induction ranges with
  | nil => exact absurd rfl covered
  | cons range rest ih =>
      simp only [rangeChannelToFreq] at covered
      split at covered
      · exact absurd rfl covered
      · rename_i notLast
        split at covered
        · rename_i inside
          exact ⟨range, List.mem_cons_self, notLast, inside⟩
        · obtain ⟨other, member, inside⟩ := ih covered
          exact ⟨other, List.mem_cons_of_mem _ member, inside⟩

private theorem maps_bound :
    ∀ map ∈ maps, ∀ range ∈ map.ranges, range.channelEnd ≠ 0 →
      2 ≤ range.channelStart ∧ range.channelEnd ≤ 158 := by
  decide

private theorem atscFreqTable_bound :
    ∀ entry ∈ atscFreqTable, 2 ≤ entry.1 ∧ entry.1 ≤ 158 := by
  decide

/-- Every channel a map covers is a small positive number. -/
theorem resolveChannelInMap_bound {mapName : CStr} {channel : Int}
    (covered : resolveChannelInMap mapName channel ≠ 0) :
    2 ≤ channel ∧ channel ≤ 158 := by
  unfold resolveChannelInMap at covered
  split at covered
  · cases found : atscFreqTable.find? fun entry => entry.1 == channel with
    | none => simp [atscChannelToFreq, found] at covered
    | some entry =>
        have number : entry.1 = channel := by simpa using List.find?_some found
        exact number ▸ atscFreqTable_bound entry (List.mem_of_find?_eq_some found)
  · split at covered
    · rename_i map found
      obtain ⟨range, member, notLast, inside⟩ := rangeChannelToFreq_covered covered
      have limits := maps_bound map (List.mem_of_find?_eq_some found) range member notLast
      omega
    · exact absurd rfl covered

end HdhrEmu
