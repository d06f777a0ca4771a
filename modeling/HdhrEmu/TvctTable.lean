import HdhrEmu.PsipTables

/-!
# Virtual channel tables that are sent and read back

The entries of a virtual channel table in the layout of A/65, and what
`psip_parse_tvct` makes of a whole section and of one that ends too early.
-/

namespace HdhrEmu

open ByteFields

/-- An entry as it is sent. -/
structure VirtualChannel where
  name : List UInt16
  name_short : name.length ≤ 7
  reserved : Fin (2 ^ 4)
  major : Fin (2 ^ 10)
  minor : Fin (2 ^ 10)
  modulationMode : UInt8
  carrierFrequency : UInt32
  channelTsid : UInt16
  programNumber : UInt16
  etmLocation : Fin (2 ^ 2)
  accessControlled : Bool
  hidden : Bool
  pathSelect : Fin (2 ^ 2)
  hideGuide : Bool
  flagsReserved : Fin (2 ^ 3)
  serviceType : Fin (2 ^ 6)
  sourceId : UInt16
  descriptorsReserved : Fin (2 ^ 6)
  descriptors : List UInt8
  descriptors_short : descriptors.length < 2 ^ 10

namespace VirtualChannel

/-- The seven code units of the name; the ones behind it are zero. -/
def units (channel : VirtualChannel) : List UInt16 :=
  channel.name ++ List.replicate (7 - channel.name.length) 0

def nameBytes (units : List UInt16) : List UInt8 :=
  units.flatMap fun unit => bigEndian 2 unit.toNat

/-- Four reserved bits, and ten for each number. -/
def triplet (channel : VirtualChannel) : Nat :=
  (channel.reserved * 2 ^ 10 + channel.major) * 2 ^ 10 + channel.minor

/-- The two bytes of flags. -/
def flags (channel : VirtualChannel) : Nat :=
  ((channel.etmLocation * 2 + channel.accessControlled.toNat) * 2 + channel.hidden.toNat) * 2 ^ 12 +
    ((channel.pathSelect * 2 + channel.hideGuide.toNat) * 2 ^ 9 +
      (channel.flagsReserved * 2 ^ 6 + channel.serviceType))

/-- The part of fixed length. -/
def fixed (channel : VirtualChannel) : List UInt8 :=
  nameBytes channel.units ++ (bigEndian 3 channel.triplet ++ ([channel.modulationMode] ++
    (bigEndian 4 channel.carrierFrequency.toNat ++ (bigEndian 2 channel.channelTsid.toNat ++
      (bigEndian 2 channel.programNumber.toNat ++ (bigEndian 2 channel.flags ++
        (bigEndian 2 channel.sourceId.toNat ++
          bigEndian 2 (channel.descriptorsReserved * 2 ^ 10 + channel.descriptors.length))))))))

def bytes (channel : VirtualChannel) : List UInt8 :=
  channel.fixed ++ channel.descriptors

/-- A code unit that is shown; what cannot be printed is a question mark. -/
def shownUnit (unit : UInt16) : Char :=
  if 0x20 ≤ unit.toNat ∧ unit.toNat ≤ 0x7E then Char.ofNat unit.toNat else '?'

/-- The name up to its first zero, without blanks at its end. -/
def shownName (channel : VirtualChannel) : CStr :=
  ((channel.name.takeWhile fun unit => unit ≠ 0).map shownUnit).rdropWhile fun character =>
    character = ' '

/-- What a parser should make of the entry. -/
def parsed (channel : VirtualChannel) : TvctEntry where
  shortName := channel.shownName
  majorChannelNumber := channel.major
  minorChannelNumber := channel.minor
  channelTsid := channel.channelTsid
  programNumber := channel.programNumber
  hidden := channel.hidden

@[simp]
theorem length_units (channel : VirtualChannel) : channel.units.length = 7 := by
  have short := channel.name_short
  rw [units, List.length_append, List.length_replicate]
  omega

@[simp]
theorem length_nameBytes (units : List UInt16) : (nameBytes units).length = 2 * units.length := by
  induction units with
  | nil => rfl
  | cons unit units ih =>
      have two : (nameBytes (unit :: units)).length = 2 + (nameBytes units).length := by
        rw [nameBytes, List.flatMap_cons, List.length_append, length_bigEndian, nameBytes]
      rw [two, ih, List.length_cons]
      omega

@[simp]
theorem length_fixed (channel : VirtualChannel) : channel.fixed.length = 32 := by
  simp [fixed]

@[simp]
theorem length_bytes (channel : VirtualChannel) :
    channel.bytes.length = 32 + channel.descriptors.length := by
  simp [bytes]

theorem asciiUnit_eq (unit : UInt16) : asciiUnit unit = shownUnit unit := by
  have low : 0x20 ≤ unit ↔ 0x20 ≤ unit.toNat := UInt16.le_iff_toNat_le
  have high : unit < 0x7F ↔ unit.toNat ≤ 0x7E :=
    UInt16.lt_iff_toNat_lt.trans Nat.lt_succ_iff
  rw [asciiUnit, shownUnit]
  simp only [low, high]

/-- The zeros behind a name end it. -/
theorem takeWhile_units (channel : VirtualChannel) :
    (channel.units.takeWhile fun unit => unit ≠ 0) = channel.name.takeWhile fun unit => unit ≠ 0 := by
  have zeros : ((List.replicate (7 - channel.name.length) (0 : UInt16)).takeWhile fun unit =>
      unit ≠ 0) = [] := by
    rw [List.takeWhile_replicate]
    exact if_neg (by decide)
  rw [units, List.takeWhile_append, zeros, List.append_nil]
  split
  · rename_i whole
    exact ((List.takeWhile_prefix _).eq_of_length whole).symm
  · rfl

theorem decodeShortName_units (channel : VirtualChannel) :
    decodeShortName channel.units = channel.shownName := by
  rw [decodeShortName, takeWhile_units, shownName, List.map_congr_left fun unit _ => asciiUnit_eq unit]
  rfl

theorem units_read {sec : List UInt8} {units : List UInt16} {off : Nat}
    (stands : StandsAt sec off (nameBytes units)) :
    ((List.range units.length).map fun i => rd16 sec (off + i * 2)) = units := by
  induction units generalizing off with
  | nil => rfl
  | cons unit units ih =>
      have later := stands.right
      rw [length_bigEndian] at later
      have next : ∀ i, off + (i + 1) * 2 = off + 2 + i * 2 := by omega
      rw [List.length_cons, List.range_succ_eq_map, List.map_cons, List.map_map, Nat.zero_mul,
        Nat.add_zero, rd16_eq stands.left]
      simp only [Function.comp_def, Nat.succ_eq_add_one, next]
      rw [ih later]

theorem triplet_read {sec : List UInt8} {off : Nat} {channel : VirtualChannel}
    (stands : StandsAt sec off (bigEndian 3 channel.triplet)) :
    ((sec.getD off 0).toNat <<< 16) ||| ((sec.getD (off + 1) 0).toNat <<< 8) |||
      (sec.getD (off + 2) 0).toNat = channel.triplet := by
  have read := stands.numberAt
  have bytes : numberAt sec off 3 =
      number [sec.getD off 0, sec.getD (off + 1) 0, sec.getD (off + 2) 0] := rfl
  have majorBound := channel.major.isLt
  have minorBound := channel.minor.isLt
  have reservedBound := channel.reserved.isLt
  rw [bytes] at read
  simp only [number, List.foldl_cons, List.foldl_nil] at read
  generalize sec.getD off 0 = high at *
  generalize sec.getD (off + 1) 0 = middle at *
  generalize sec.getD (off + 2) 0 = low at *
  have highBound := high.toNat_lt
  have middleBound := middle.toNat_lt
  have lowBound := low.toNat_lt
  rw [Nat.or_assoc, Nat.or_comm, Nat.or_comm (middle.toNat <<< 8), or_shiftLeft lowBound,
    or_shiftLeft (by omega)]
  rw [triplet] at read ⊢
  omega

theorem triplet_major (channel : VirtualChannel) :
    (channel.triplet >>> 10) &&& 0x3FF = channel.major := by
  have minorBound := channel.minor.isLt
  have majorBound := channel.major.isLt
  have mask : 0x3FF = 2 ^ 10 - 1 := rfl
  rw [mask, Nat.and_two_pow_sub_one_eq_mod, Nat.shiftRight_eq_div_pow, triplet]
  omega

theorem triplet_minor (channel : VirtualChannel) : channel.triplet &&& 0x3FF = channel.minor := by
  have minorBound := channel.minor.isLt
  have mask : 0x3FF = 2 ^ 10 - 1 := rfl
  rw [mask, Nat.and_two_pow_sub_one_eq_mod, triplet]
  omega

/-- The bit 0x10 of the first byte of the flags. -/
theorem and_sixteen (byte : UInt8) : byte &&& 0x10 ≠ 0 ↔ byte.toNat / 16 % 2 = 1 := by
  have all : ∀ n < 256, (UInt8.ofNat n &&& 0x10 ≠ 0 ↔ n / 16 % 2 = 1) := by
    decide +kernel
  have bound := byte.toNat_lt
  have same := all byte.toNat bound
  rwa [UInt8.ofNat_toNat] at same

theorem hidden_read {sec : List UInt8} {off : Nat} {channel : VirtualChannel}
    (stands : StandsAt sec off (bigEndian 2 channel.flags)) :
    decide (sec.getD off 0 &&& 0x10 ≠ 0) = channel.hidden := by
  have first : sec.getD off 0 = UInt8.ofNat (channel.flags / 256 ^ 1) := stands.cons.1
  have pathBound := channel.pathSelect.isLt
  have reservedBound := channel.flagsReserved.isLt
  have typeBound := channel.serviceType.isLt
  have guideBound := channel.hideGuide.toNat_lt
  have accessBound := channel.accessControlled.toNat_lt
  have etmBound := channel.etmLocation.isLt
  rw [Bool.eq_iff_iff, decide_eq_true_iff, first, and_sixteen, UInt8.toNat_ofNat', flags]
  cases channel.hidden with
  | false =>
      rw [Bool.toNat_false]
      refine iff_of_false ?_ Bool.false_ne_true
      omega
  | true =>
      rw [Bool.toNat_true]
      refine iff_of_true ?_ rfl
      omega

theorem entry_read {sec : List UInt8} {off : Nat} {channel : VirtualChannel}
    (stands : StandsAt sec off channel.fixed) : tvctEntry sec off = channel.parsed := by
  have triplet := stands.right
  have modulation := triplet.right
  have carrier := modulation.right
  have tsid := carrier.right
  have program := tsid.right
  have flags := program.right
  simp only [length_nameBytes, length_units, length_bigEndian, List.length_singleton, Nat.add_assoc]
    at triplet tsid program flags
  have units := units_read stands.left
  rw [length_units] at units
  rw [tvctEntry, parsed]
  simp only [TvctEntry.mk.injEq]
  have numbers := triplet_read triplet.left
  refine ⟨?_, ?_, ?_, rd16_eq tsid.left, rd16_eq program.left, hidden_read flags.left⟩
  · rw [units, decodeShortName_units]
  · rw [numbers, triplet_major]
  · rw [numbers, triplet_minor]

theorem descriptors_read {sec : List UInt8} {off : Nat} {channel : VirtualChannel}
    (stands : StandsAt sec off channel.fixed) :
    (rd16 sec (off + 30) &&& 0x03FF).toNat = channel.descriptors.length := by
  have length := stands.right.right.right.right.right.right.right.right
  simp only [length_nameBytes, length_units, length_bigEndian, List.length_singleton,
    Nat.add_assoc] at length
  exact toNat_rd16_and length rfl (by decide) channel.descriptors_short

end VirtualChannel

/-- The loop reads the entries one after another, as far as there is room; it
stops where the next one would not be inside. -/
theorem tvctEntries_read {sec : List UInt8} {channels : List VirtualChannel} {off last : Nat}
    (stands : StandsAt sec off (channels.flatMap VirtualChannel.bytes))
    (inside : off + (channels.flatMap VirtualChannel.bytes).length ≤ last) {room : Nat}
    (stops : room ≤ channels.length ∨
      last < off + (channels.flatMap VirtualChannel.bytes).length + 32) :
    tvctEntries sec last room off = (channels.take room).map VirtualChannel.parsed := by
  induction channels generalizing off room with
  | nil =>
      cases room with
      | zero => rfl
      | succ room =>
          rcases stops with full | short
          · exact absurd full (Nat.not_succ_le_zero room)
          · exact if_neg (Nat.not_le.mpr short)
  | cons channel channels ih =>
      cases room with
      | zero => rfl
      | succ room =>
          have first := stands.left.left
          have later := stands.right
          rw [List.flatMap_cons, List.length_append, channel.length_bytes] at inside stops
          rw [channel.length_bytes] at later
          have here : off + 32 ≤ last := by omega
          rw [tvctEntries, if_pos here, VirtualChannel.entry_read first,
            VirtualChannel.descriptors_read first, ih later (by omega)]
          · rfl
          · rw [List.length_cons] at stops
            omega

/-- The body of a section: protocol version, number of channels, the channels,
and what follows them before the checksum. -/
def tvctBody (protocolVersion : UInt8) (channels : List VirtualChannel) (additional : List UInt8) :
    List UInt8 :=
  [protocolVersion, UInt8.ofNat channels.length] ++
    (channels.flatMap VirtualChannel.bytes ++ additional)

/-- A virtual channel table that fits into one section. -/
structure TvctTable where
  header : SectionHeader
  protocolVersion : UInt8
  channels : List VirtualChannel
  additional : List UInt8
  crc : UInt32
  fits : FitsSection (tvctBody protocolVersion channels additional)

def TvctTable.encode (table : TvctTable) : List UInt8 :=
  encodeSection table.header (tvctBody table.protocolVersion table.channels table.additional)
    table.crc

/-- A section that declares its end inside the fixed part of the channel after
the first `whole` ones.  A checksum and anything else follow there. -/
structure CutTvctTable where
  header : SectionHeader
  protocolVersion : UInt8
  channels : List VirtualChannel
  count_fits : channels.length < 2 ^ 8
  whole : Nat
  whole_lt : whole < channels.length
  sectionLength : Nat
  length_fits : sectionLength < 2 ^ 12
  from_start : 10 + ((channels.take whole).flatMap VirtualChannel.bytes).length ≤
    3 + sectionLength - 4
  inside_fixed : 3 + sectionLength - 4 <
    10 + ((channels.take whole).flatMap VirtualChannel.bytes).length + 32
  rest : List UInt8
  checksum : 4 ≤ rest.length

/-- What there is of the table before the declared end. -/
def CutTvctTable.kept (table : CutTvctTable) : List UInt8 :=
  (tvctBody table.protocolVersion table.channels []).take (table.sectionLength - 9)

def CutTvctTable.encode (table : CutTvctTable) : List UInt8 :=
  table.header.bytes table.sectionLength ++ (table.kept ++ table.rest)

theorem length_flatMap_bytes (channels : List VirtualChannel) :
    32 * channels.length ≤ (channels.flatMap VirtualChannel.bytes).length := by
  induction channels with
  | nil => exact Nat.le_refl _
  | cons channel channels ih =>
      rw [List.flatMap_cons, List.length_append, channel.length_bytes, List.length_cons]
      omega

/-- What the fields in front of the channels say. -/
theorem psipParseTvct_eq {sec : List UInt8} {header : SectionHeader} {length total count : Nat}
    {protocolVersion : UInt8} (standsHeader : StandsAt sec 0 (header.bytes length))
    (small : length < 2 ^ 12) (found : sectionTotal sec = some total)
    (standsCount : StandsAt sec 8 [protocolVersion, UInt8.ofNat count]) (fewer : count < 2 ^ 8)
    (maxOut : Nat) :
    psipParseTvct sec maxOut =
      some (tvctEntries sec (total - 4) (min count maxOut) 10, header.sectionNumber,
        header.lastSectionNumber) := by
  have read := headerRead standsHeader small
  have numChannels : (sec.getD 9 0).toNat = count := by
    rw [standsCount.cons.2.cons.1, UInt8.toNat_ofNat', Nat.mod_eq_of_lt fewer]
  rw [psipParseTvct, found, Option.map_some, numChannels, read.sectionNumber, read.lastSectionNumber]

theorem length_tvctBody (protocolVersion : UInt8) (channels : List VirtualChannel)
    (additional : List UInt8) :
    (tvctBody protocolVersion channels additional).length =
      2 + ((channels.flatMap VirtualChannel.bytes).length + additional.length) := by
  rw [tvctBody, List.length_append, List.length_append]
  rfl

theorem psipParseTvct_encode (table : TvctTable) (maxOut : Nat) :
    psipParseTvct table.encode maxOut =
      some ((table.channels.take maxOut).map VirtualChannel.parsed, table.header.sectionNumber,
        table.header.lastSectionNumber) := by
  have small := table.fits
  have large := length_flatMap_bytes table.channels
  rw [FitsSection, sectionLength, length_tvctBody] at small
  have header : StandsAt table.encode 0 (table.header.bytes _) := standsAt_header _ _ _
  have stands : StandsAt table.encode 8 (tvctBody _ _ _) := standsAt_body _ _ _
  have entries : StandsAt table.encode 10 (table.channels.flatMap VirtualChannel.bytes) :=
    stands.right.left
  have total : sectionTotal table.encode = some _ := sectionTotal_encodeSection table.fits
  rw [psipParseTvct_eq header table.fits total stands.left (by omega), Option.some.injEq,
    Prod.mk.injEq]
  refine ⟨?_, rfl⟩
  rw [tvctEntries_read entries]
  · rw [Nat.min_comm, ← List.take_take, List.take_length]
  · rw [sectionLength, length_tvctBody]
    omega
  · exact .inl (Nat.min_le_left _ _)

namespace CutTvctTable

theorem flatMap_split (table : CutTvctTable) :
    table.channels.flatMap VirtualChannel.bytes =
      (table.channels.take table.whole).flatMap VirtualChannel.bytes ++
        (table.channels.drop table.whole).flatMap VirtualChannel.bytes := by
  rw [← List.flatMap_append, List.take_append_drop]

/-- The entry that is cut has its whole fixed part in the table, so that the
table reaches the declared end. -/
theorem reaches_end (table : CutTvctTable) :
    table.sectionLength - 9 ≤ (tvctBody table.protocolVersion table.channels []).length := by
  have large := length_flatMap_bytes (table.channels.drop table.whole)
  have cut := table.whole_lt
  have inside := table.inside_fixed
  rw [List.length_drop] at large
  rw [length_tvctBody, flatMap_split, List.length_append]
  omega

theorem length_kept (table : CutTvctTable) : table.kept.length = table.sectionLength - 9 := by
  rw [kept, List.length_take, Nat.min_eq_left table.reaches_end]

/-- Everything up to the entry that is cut is there. -/
theorem kept_front (table : CutTvctTable) :
    [table.protocolVersion, UInt8.ofNat table.channels.length] ++
      (table.channels.take table.whole).flatMap VirtualChannel.bytes <+: table.kept := by
  have fromStart := table.from_start
  rw [kept, List.prefix_take_iff]
  constructor
  · rw [tvctBody, flatMap_split, List.append_assoc, ← List.append_assoc]
    exact List.prefix_append _ _
  · rw [List.length_append]
    simp only [List.length_cons, List.length_nil]
    omega

theorem standsAt_header (table : CutTvctTable) :
    StandsAt table.encode 0 (table.header.bytes table.sectionLength) :=
  StandsAt.of_append [] _ _

theorem standsAt_kept (table : CutTvctTable) : StandsAt table.encode 8 table.kept := by
  have stands := StandsAt.of_append (table.header.bytes table.sectionLength) table.kept table.rest
  rwa [table.header.length_bytes] at stands

theorem sectionTotal_encode (table : CutTvctTable) :
    sectionTotal table.encode = some (3 + table.sectionLength) := by
  have fromStart := table.from_start
  have checksum := table.checksum
  apply sectionTotal_eq table.standsAt_header table.length_fits
  · omega
  · rw [encode, List.length_append, List.length_append, length_kept, SectionHeader.length_bytes]
    omega

end CutTvctTable

theorem psipParseTvct_cut (table : CutTvctTable) (maxOut : Nat) :
    psipParseTvct table.encode maxOut =
      some ((table.channels.take (min table.whole maxOut)).map VirtualChannel.parsed,
        table.header.sectionNumber, table.header.lastSectionNumber) := by
  have stands := table.standsAt_kept.of_prefix table.kept_front
  have entries : StandsAt table.encode 10
      ((table.channels.take table.whole).flatMap VirtualChannel.bytes) := stands.right
  have whole := table.whole_lt
  have inside := table.inside_fixed
  rw [psipParseTvct_eq table.standsAt_header table.length_fits table.sectionTotal_encode stands.left
    table.count_fits, Option.some.injEq, Prod.mk.injEq]
  refine ⟨?_, rfl⟩
  rw [tvctEntries_read entries table.from_start (.inr inside), List.take_take]
  have first : min (min table.channels.length maxOut) table.whole = min table.whole maxOut := by
    omega
  rw [first]

/-- The virtual channels of a section come back as they were sent, as far as
there is room; of a section that is cut, the ones before the cut do. -/
theorem virtual_channels_read_back (table : TvctTable) (cut : CutTvctTable) (maxOut : Nat) :
    psipParseTvct table.encode maxOut =
        some ((table.channels.take maxOut).map VirtualChannel.parsed, table.header.sectionNumber,
          table.header.lastSectionNumber) ∧
      psipParseTvct cut.encode maxOut =
        some ((cut.channels.take (min cut.whole maxOut)).map VirtualChannel.parsed,
          cut.header.sectionNumber, cut.header.lastSectionNumber) :=
  ⟨psipParseTvct_encode table maxOut, psipParseTvct_cut cut maxOut⟩

end HdhrEmu
