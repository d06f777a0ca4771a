import HdhrEmu.Lib.CString

/-!
# PSIP sections

The parsers of `psip.c` for the program association table, the program map
table and the virtual channel tables.  A section is the bytes that were read,
and a parser that rejects a section returns `none`.
-/

namespace HdhrEmu

def rd16 (sec : List UInt8) (off : Nat) : UInt16 :=
  ((sec.getD off 0).toUInt16 <<< 8) ||| (sec.getD (off + 1) 0).toUInt16

/-- The length of a section with its header and checksum, if it is plausible. -/
def sectionTotal (sec : List UInt8) : Option Nat :=
  if sec.length < 12 then none
  else
    let total := 3 + (((sec.getD 1 0 &&& 0x0F).toNat <<< 8) ||| (sec.getD 2 0).toNat)
    if sec.length < total ∨ total < 12 then none else some total

structure PatEntry where
  programNumber : UInt16
  pmtPid : UInt16
  deriving DecidableEq, Repr

def patMaxEntries : Nat := 64

/-- `psip_parse_pat`; program 0 is the network PID. -/
def psipParsePat (sec : List UInt8) (maxOut : Nat) : Option (List PatEntry) :=
  (sectionTotal sec).map fun total =>
    (((List.range ((total - 12) / 4)).map fun i =>
        PatEntry.mk (rd16 sec (8 + 4 * i)) (rd16 sec (8 + 4 * i + 2) &&& 0x1FFF)).filter
      fun entry => entry.programNumber ≠ 0).take maxOut

structure PmtStream where
  streamType : UInt8
  elementaryPid : UInt16
  deriving DecidableEq, Repr

structure PmtInfo where
  programNumber : UInt16
  pcrPid : UInt16
  streams : List PmtStream
  deriving DecidableEq, Repr

def pmtMaxStreams : Nat := 32

/-- The loop of `psip_parse_pmt`, with room for as many streams. -/
def pmtStreams (sec : List UInt8) (last : Nat) : Nat → Nat → List PmtStream
  | 0, _ => []
  | room + 1, off =>
      if off + 5 ≤ last then
        ⟨sec.getD off 0, rd16 sec (off + 1) &&& 0x1FFF⟩ ::
          pmtStreams sec last room (off + (5 + (rd16 sec (off + 3) &&& 0x0FFF).toNat))
      else []

def psipParsePmt (sec : List UInt8) : Option PmtInfo :=
  (sectionTotal sec).map fun total =>
    { programNumber := rd16 sec 3
      pcrPid := rd16 sec 8 &&& 0x1FFF
      streams := pmtStreams sec (total - 4) pmtMaxStreams
        (12 + (rd16 sec 10 &&& 0x0FFF).toNat) }

/-- The PIDs that `psip_pmt_pick_av` picks; zero where there is none. -/
structure PickedAv where
  haveVideo : Bool := false
  videoPid : UInt16 := 0
  videoStreamType : UInt8 := 0
  audioPid : UInt16 := 0
  audioStreamType : UInt8 := 0
  deriving DecidableEq, Repr

def PickedAv.stream (picked : PickedAv) (stream : PmtStream) : PickedAv :=
  if !picked.haveVideo && (stream.streamType == 0x02 || stream.streamType == 0x1B) then
    { picked with
      haveVideo := true
      videoPid := stream.elementaryPid
      videoStreamType := stream.streamType }
  else if picked.audioPid == 0 && (stream.streamType == 0x81 || stream.streamType == 0x0F) then
    { picked with
      audioPid := stream.elementaryPid
      audioStreamType := stream.streamType }
  else picked

def psipPmtPickAv (pmt : PmtInfo) : PickedAv :=
  pmt.streams.foldl PickedAv.stream {}

structure TvctEntry where
  shortName : CStr
  majorChannelNumber : Nat
  minorChannelNumber : Nat
  channelTsid : UInt16
  programNumber : UInt16
  hidden : Bool
  deriving DecidableEq, Repr

def tvctMaxChannels : Nat := 64

/-- A UTF-16 code unit as ASCII. -/
def asciiUnit (unit : UInt16) : Char :=
  if 0x20 ≤ unit ∧ unit < 0x7F then Char.ofNat unit.toNat else '?'

/-- A name without the blanks at its end. -/
def trimRight (name : CStr) : CStr :=
  (name.reverse.dropWhile (· = ' ')).reverse

/-- `decode_short_name` of seven code units. -/
def decodeShortName (units : List UInt16) : CStr :=
  trimRight ((units.takeWhile (· ≠ 0)).map asciiUnit)

def tvctEntry (sec : List UInt8) (off : Nat) : TvctEntry :=
  let triplet := ((sec.getD (off + 14) 0).toNat <<< 16) ||| ((sec.getD (off + 15) 0).toNat <<< 8) |||
    (sec.getD (off + 16) 0).toNat
  { shortName := decodeShortName ((List.range 7).map fun i => rd16 sec (off + i * 2))
    majorChannelNumber := (triplet >>> 10) &&& 0x3FF
    minorChannelNumber := triplet &&& 0x3FF
    channelTsid := rd16 sec (off + 22)
    programNumber := rd16 sec (off + 24)
    hidden := sec.getD (off + 26) 0 &&& 0x10 ≠ 0 }

/-- The loop of `psip_parse_tvct`, for as many channels. -/
def tvctEntries (sec : List UInt8) (last : Nat) : Nat → Nat → List TvctEntry
  | 0, _ => []
  | room + 1, off =>
      if off + 32 ≤ last then
        tvctEntry sec off ::
          tvctEntries sec last room (off + (32 + (rd16 sec (off + 30) &&& 0x03FF).toNat))
      else []

/-- `psip_parse_tvct`: the entries, and the number of the section and of the
last one. -/
def psipParseTvct (sec : List UInt8) (maxOut : Nat) : Option (List TvctEntry × UInt8 × UInt8) :=
  (sectionTotal sec).map fun total =>
    (tvctEntries sec (total - 4) (min (sec.getD 9 0).toNat maxOut) 10, sec.getD 6 0, sec.getD 7 0)

theorem length_pmtStreams (sec : List UInt8) (last room off : Nat) :
    (pmtStreams sec last room off).length ≤ room := by
  induction room generalizing off with
  | zero => exact Nat.le_refl 0
  | succ room ih =>
      rw [pmtStreams]
      split
      · exact Nat.succ_le_succ (ih _)
      · exact Nat.zero_le _

theorem length_tvctEntries (sec : List UInt8) (last room off : Nat) :
    (tvctEntries sec last room off).length ≤ room := by
  induction room generalizing off with
  | zero => exact Nat.le_refl 0
  | succ room ih =>
      rw [tvctEntries]
      split
      · exact Nat.succ_le_succ (ih _)
      · exact Nat.zero_le _

/-- A name that comes out of a table: at most seven printable characters
without a blank at the end. -/
structure TableName (name : CStr) : Prop where
  short : name.length ≤ 7
  printable : ∀ character ∈ name, ' ' ≤ character ∧ character ≤ '~'
  trimmed : name.getLast? ≠ some ' '

theorem asciiUnit_printable (unit : UInt16) : ' ' ≤ asciiUnit unit ∧ asciiUnit unit ≤ '~' := by
  unfold asciiUnit
  by_cases ascii : 0x20 ≤ unit ∧ unit < 0x7F
  · rw [if_pos ascii]
    have low : 0x20 ≤ unit.toNat := UInt16.le_iff_toNat_le.mp ascii.1
    have high : unit.toNat < 0x7F := UInt16.lt_iff_toNat_lt.mp ascii.2
    have all : ∀ code < 0x7F, 0x20 ≤ code → ' ' ≤ Char.ofNat code ∧ Char.ofNat code ≤ '~' := by
      decide
    exact all unit.toNat high low
  · rw [if_neg ascii]
    decide

theorem mem_of_mem_trimRight {name : CStr} {character : Char}
    (member : character ∈ trimRight name) : character ∈ name := by
  rw [trimRight, List.mem_reverse] at member
  have inside := (List.dropWhile_suffix _).subset member
  exact List.mem_reverse.mp inside

theorem length_trimRight (name : CStr) : (trimRight name).length ≤ name.length := by
  calc (trimRight name).length = (name.reverse.dropWhile (· = ' ')).length := List.length_reverse
    _ ≤ name.reverse.length := (List.dropWhile_suffix _).length_le
    _ = name.length := List.length_reverse

theorem getLast?_trimRight (name : CStr) : (trimRight name).getLast? ≠ some ' ' := by
  rw [trimRight, List.getLast?_reverse]
  intro blank
  have notBlank := List.head?_dropWhile_not (fun character : Char => decide (character = ' '))
    name.reverse
  rw [blank] at notBlank
  simp at notBlank

theorem tableName_decodeShortName {units : List UInt16} (seven : units.length ≤ 7) :
    TableName (decodeShortName units) where
  short := by
    have trimmed := length_trimRight ((units.takeWhile (· ≠ 0)).map asciiUnit)
    have taken := (List.takeWhile_prefix (l := units) (fun unit => decide (unit ≠ 0))).length_le
    rw [List.length_map] at trimmed
    exact Nat.le_trans trimmed (Nat.le_trans taken seven)
  printable := by
    intro character member
    obtain ⟨unit, -, rfl⟩ := List.mem_map.mp (mem_of_mem_trimRight member)
    exact asciiUnit_printable unit
  trimmed := getLast?_trimRight _

theorem tableName_tvctEntries (sec : List UInt8) (last room off : Nat) :
    ∀ entry ∈ tvctEntries sec last room off, TableName entry.shortName := by
  induction room generalizing off with
  | zero => exact fun _ member => nomatch member
  | succ room ih =>
      rw [tvctEntries]
      split
      · rw [List.forall_mem_cons]
        have seven : ((List.range 7).map fun i => rd16 sec (off + i * 2)).length ≤ 7 := by simp
        exact ⟨tableName_decodeShortName seven, ih _⟩
      · exact fun _ member => nomatch member

/-- Every name that `psip_parse_tvct` returns is such a name. -/
theorem tableName_psipParseTvct {sec : List UInt8} {maxOut : Nat}
    {parsed : List TvctEntry × UInt8 × UInt8} (read : psipParseTvct sec maxOut = some parsed) :
    ∀ entry ∈ parsed.1, TableName entry.shortName := by
  obtain ⟨total, -, rfl⟩ := Option.map_eq_some_iff.mp read
  exact tableName_tvctEntries _ _ _ _

end HdhrEmu
