import HdhrEmu.Lib.ByteFields
import HdhrEmu.Psip
import Mathlib.Data.List.DropRight

/-!
# Tables that are sent and read back

The sections that a broadcaster sends, with whatever stands in their reserved
bits and descriptors, and what the parsers of `psip.c` make of them.
-/

namespace HdhrEmu

open ByteFields

/-- What stands before the body of a section, except for its length. -/
structure SectionHeader where
  tableId : UInt8
  flags : Fin 16
  extension : UInt16
  version : UInt8
  sectionNumber : UInt8
  lastSectionNumber : UInt8

def SectionHeader.bytes (header : SectionHeader) (sectionLength : Nat) : List UInt8 :=
  [header.tableId] ++ (bigEndian 2 (header.flags * 2 ^ 12 + sectionLength) ++
    (bigEndian 2 header.extension.toNat ++
      [header.version, header.sectionNumber, header.lastSectionNumber]))

/-- The length of a section counts what follows it: half of the header, the
body and the checksum. -/
def sectionLength (body : List UInt8) : Nat :=
  5 + body.length + 4

def encodeSection (header : SectionHeader) (body : List UInt8) (crc : UInt32) : List UInt8 :=
  header.bytes (sectionLength body) ++ (body ++ bigEndian 4 crc.toNat)

/-- The length has twelve bits. -/
def FitsSection (body : List UInt8) : Prop :=
  sectionLength body < 2 ^ 12

@[simp]
theorem SectionHeader.length_bytes (header : SectionHeader) (length : Nat) :
    (header.bytes length).length = 8 := by
  simp [bytes]

@[simp]
theorem length_encodeSection (header : SectionHeader) (body : List UInt8) (crc : UInt32) :
    (encodeSection header body crc).length = 3 + sectionLength body := by
  simp [encodeSection, sectionLength]
  omega

/-- Reading the fields of a header. -/
structure HeaderRead (sec : List UInt8) (header : SectionHeader) (length : Nat) : Prop where
  extension : rd16 sec 3 = header.extension
  sectionNumber : sec.getD 6 0 = header.sectionNumber
  lastSectionNumber : sec.getD 7 0 = header.lastSectionNumber
  low : (sec.getD 1 0 &&& 0x0F).toNat <<< 8 ||| (sec.getD 2 0).toNat = length

theorem rd16_toNat (sec : List UInt8) (off : Nat) : (rd16 sec off).toNat = numberAt sec off 2 := by
  have bytes : numberAt sec off 2 = number [sec.getD off 0, sec.getD (off + 1) 0] := rfl
  rw [rd16, toNat_shiftLeft_or, bytes]
  simp only [number, List.foldl_cons, List.foldl_nil]
  omega

theorem toNat_rd16 {sec : List UInt8} {off n : Nat} (stands : StandsAt sec off (bigEndian 2 n)) :
    (rd16 sec off).toNat = n % 2 ^ 16 :=
  (rd16_toNat sec off).trans stands.numberAt

theorem rd16_eq {sec : List UInt8} {off : Nat} {word : UInt16}
    (stands : StandsAt sec off (bigEndian 2 word.toNat)) : rd16 sec off = word := by
  have bound := word.toNat_lt
  apply UInt16.toNat_inj.mp
  rw [toNat_rd16 stands, Nat.mod_eq_of_lt bound]

/-- The lowest bits of a field, whatever is reserved above them. -/
theorem toNat_rd16_and {sec : List UInt8} {off high value bits : Nat} {mask : UInt16}
    (stands : StandsAt sec off (bigEndian 2 (high * 2 ^ bits + value)))
    (low : mask.toNat = 2 ^ bits - 1) (narrow : bits ≤ 16) (small : value < 2 ^ bits) :
    (rd16 sec off &&& mask).toNat = value := by
  have divides : 2 ^ bits ∣ 2 ^ 16 := Nat.pow_dvd_pow 2 narrow
  rw [UInt16.toNat_and, toNat_rd16 stands, low, Nat.and_two_pow_sub_one_eq_mod,
    Nat.mod_mod_of_dvd _ divides, Nat.mul_add_mod_self_right, Nat.mod_eq_of_lt small]

theorem headerRead {sec : List UInt8} {header : SectionHeader} {length : Nat}
    (stands : StandsAt sec 0 (header.bytes length)) (small : length < 2 ^ 12) :
    HeaderRead sec header length := by
  have fields := stands.right
  have second := fields.right
  have third := second.right
  simp only [length_bigEndian, List.length_singleton] at fields second third
  constructor
  · exact rd16_eq second.left
  · exact third.cons.2.cons.1
  · exact third.cons.2.cons.2.cons.1
  · have two : StandsAt sec 1 [UInt8.ofNat ((header.flags * 2 ^ 12 + length) / 256 ^ 1),
        UInt8.ofNat ((header.flags * 2 ^ 12 + length) / 256 ^ 0)] := fields.left
    obtain ⟨high, rest⟩ := two.cons
    rw [high, rest.cons.1, UInt8.toNat_and, UInt8.toNat_ofNat', UInt8.toNat_ofNat']
    have mask : (0x0F : UInt8).toNat = 2 ^ 4 - 1 := rfl
    rw [mask, Nat.and_two_pow_sub_one_eq_mod, Nat.or_comm, or_shiftLeft (by omega)]
    omega

/-- A section whose declared end is among the bytes that were read. -/
theorem sectionTotal_eq {sec : List UInt8} {header : SectionHeader} {length : Nat}
    (stands : StandsAt sec 0 (header.bytes length)) (small : length < 2 ^ 12) (atLeast : 9 ≤ length)
    (there : 3 + length ≤ sec.length) : sectionTotal sec = some (3 + length) := by
  have enough : ¬ sec.length < 12 := by omega
  have inRange : ¬ (sec.length < 3 + length ∨ 3 + length < 12) := by omega
  rw [sectionTotal, if_neg enough, (headerRead stands small).low]
  exact if_neg inRange

theorem standsAt_header (header : SectionHeader) (body : List UInt8) (crc : UInt32) :
    StandsAt (encodeSection header body crc) 0 (header.bytes (sectionLength body)) :=
  StandsAt.of_append [] _ _

theorem standsAt_body (header : SectionHeader) (body : List UInt8) (crc : UInt32) :
    StandsAt (encodeSection header body crc) 8 body := by
  have stands := StandsAt.of_append (header.bytes (sectionLength body)) body (bigEndian 4 crc.toNat)
  rwa [header.length_bytes] at stands

theorem sectionTotal_encodeSection {header : SectionHeader} {body : List UInt8} {crc : UInt32}
    (fits : FitsSection body) :
    sectionTotal (encodeSection header body crc) = some (3 + sectionLength body) := by
  apply sectionTotal_eq (standsAt_header header body crc) fits
  · rw [sectionLength]
    omega
  · rw [length_encodeSection]

/-- An entry as it is sent. -/
structure PatItem where
  programNumber : UInt16
  reserved : Fin (2 ^ 3)
  pid : Fin (2 ^ 13)

namespace PatItem

def bytes (item : PatItem) : List UInt8 :=
  bigEndian 2 item.programNumber.toNat ++ bigEndian 2 (item.reserved * 2 ^ 13 + item.pid)

/-- What a parser should make of it. -/
def entry (item : PatItem) : PatEntry :=
  ⟨item.programNumber, UInt16.ofNat item.pid⟩

@[simp]
theorem length_bytes (item : PatItem) : item.bytes.length = 4 := by
  simp [bytes]

theorem entry_read {sec : List UInt8} {off : Nat} {item : PatItem}
    (stands : StandsAt sec off item.bytes) :
    PatEntry.mk (rd16 sec off) (rd16 sec (off + 2) &&& 0x1FFF) = item.entry := by
  have second := stands.right
  rw [length_bigEndian] at second
  rw [rd16_eq stands.left, entry, PatEntry.mk.injEq]
  refine ⟨rfl, UInt16.toNat_inj.mp ?_⟩
  have bound := item.pid.isLt
  rw [toNat_rd16_and second rfl (by decide) bound, UInt16.toNat_ofNat']
  omega

end PatItem

/-- A program association table that fits into one section. -/
structure PatTable where
  header : SectionHeader
  items : List PatItem
  crc : UInt32
  fits : FitsSection (items.flatMap PatItem.bytes)

def PatTable.encode (table : PatTable) : List UInt8 :=
  encodeSection table.header (table.items.flatMap PatItem.bytes) table.crc

theorem length_patItems (items : List PatItem) :
    (items.flatMap PatItem.bytes).length = 4 * items.length := by
  induction items with
  | nil => rfl
  | cons item items ih =>
      rw [List.flatMap_cons, List.length_append, ih, item.length_bytes, List.length_cons]
      omega

/-- The entries that are read at their places. -/
theorem patEntries_read {sec : List UInt8} {items : List PatItem} {off : Nat}
    (stands : StandsAt sec off (items.flatMap PatItem.bytes)) :
    ((List.range items.length).map fun i =>
      PatEntry.mk (rd16 sec (off + 4 * i)) (rd16 sec (off + 4 * i + 2) &&& 0x1FFF)) =
      items.map PatItem.entry := by
  induction items generalizing off with
  | nil => rfl
  | cons item items ih =>
      have later := stands.right
      rw [item.length_bytes] at later
      have next : ∀ i, off + 4 * (i + 1) = off + 4 + 4 * i := by omega
      rw [List.length_cons, List.range_succ_eq_map, List.map_cons, List.map_map, List.map_cons,
        ← ih later, Nat.mul_zero, Nat.add_zero, item.entry_read stands.left]
      simp only [Function.comp_def, Nat.succ_eq_add_one, next]

theorem psipParsePat_encode (table : PatTable) (maxOut : Nat) :
    psipParsePat table.encode maxOut =
      some (((table.items.filter fun item => item.programNumber ≠ 0).map PatItem.entry).take
        maxOut) := by
  have count : (3 + sectionLength (table.items.flatMap PatItem.bytes) - 12) / 4 =
      table.items.length := by
    rw [sectionLength, length_patItems]
    omega
  rw [psipParsePat, PatTable.encode, sectionTotal_encodeSection table.fits, Option.map_some, count,
    patEntries_read (standsAt_body _ _ _), List.filter_map]
  rfl

/-- A stream of a program map as it is sent. -/
structure MapStream where
  streamType : UInt8
  reserved : Fin (2 ^ 3)
  pid : Fin (2 ^ 13)
  infoReserved : Fin (2 ^ 4)
  descriptors : List UInt8

namespace MapStream

/-- The part of fixed length. -/
def fixed (stream : MapStream) : List UInt8 :=
  [stream.streamType] ++ (bigEndian 2 (stream.reserved * 2 ^ 13 + stream.pid) ++
    bigEndian 2 (stream.infoReserved * 2 ^ 12 + stream.descriptors.length))

def bytes (stream : MapStream) : List UInt8 :=
  stream.fixed ++ stream.descriptors

def parsed (stream : MapStream) : PmtStream :=
  ⟨stream.streamType, UInt16.ofNat stream.pid⟩

@[simp]
theorem length_fixed (stream : MapStream) : stream.fixed.length = 5 := by
  simp [fixed]

@[simp]
theorem length_bytes (stream : MapStream) :
    stream.bytes.length = 5 + stream.descriptors.length := by
  simp [bytes]

theorem stream_read {sec : List UInt8} {off : Nat} {stream : MapStream}
    (stands : StandsAt sec off stream.fixed) :
    PmtStream.mk (sec.getD off 0) (rd16 sec (off + 1) &&& 0x1FFF) = stream.parsed := by
  have pid : StandsAt sec (off + 1) (bigEndian 2 (stream.reserved * 2 ^ 13 + stream.pid)) :=
    stands.right.left
  have bound := stream.pid.isLt
  rw [parsed, PmtStream.mk.injEq]
  refine ⟨stands.cons.1, UInt16.toNat_inj.mp ?_⟩
  rw [toNat_rd16_and pid rfl (by decide) bound, UInt16.toNat_ofNat']
  omega

theorem info_read {sec : List UInt8} {off : Nat} {stream : MapStream}
    (stands : StandsAt sec off stream.fixed) (short : stream.descriptors.length < 2 ^ 12) :
    (rd16 sec (off + 3) &&& 0x0FFF).toNat = stream.descriptors.length :=
  toNat_rd16_and stands.right.right rfl (by decide) short

end MapStream

/-- The loop reads the streams one after another, as far as there is room. -/
theorem pmtStreams_read {sec : List UInt8} {streams : List MapStream} {off : Nat}
    (stands : StandsAt sec off (streams.flatMap MapStream.bytes))
    (small : (streams.flatMap MapStream.bytes).length < 2 ^ 12) (room : Nat) :
    pmtStreams sec (off + (streams.flatMap MapStream.bytes).length) room off =
      (streams.take room).map MapStream.parsed := by
  induction streams generalizing off room with
  | nil =>
      cases room with
      | zero => rfl
      | succ room =>
          have finished : ¬ off + 5 ≤ off + 0 := by omega
          exact if_neg finished
  | cons stream streams ih =>
      cases room with
      | zero => rfl
      | succ room =>
          rw [List.flatMap_cons, List.length_append, stream.length_bytes] at small
          have first := stands.left.left
          have later := stands.right
          rw [stream.length_bytes, ← Nat.add_assoc] at later
          have inside : off + 5 ≤ off + ((stream :: streams).flatMap MapStream.bytes).length := by
            rw [List.flatMap_cons, List.length_append, stream.length_bytes]
            omega
          have last : off + ((stream :: streams).flatMap MapStream.bytes).length =
              off + 5 + stream.descriptors.length +
                (streams.flatMap MapStream.bytes).length := by
            rw [List.flatMap_cons, List.length_append, stream.length_bytes]
            omega
          have next : off + (5 + stream.descriptors.length) =
              off + 5 + stream.descriptors.length := by omega
          rw [pmtStreams, if_pos inside, MapStream.stream_read first,
            MapStream.info_read first (by omega), last, next, ih later (by omega)]
          rfl

/-- A program map that fits into one section. -/
structure PmtTable where
  header : SectionHeader
  pcrReserved : Fin (2 ^ 3)
  pcrPid : Fin (2 ^ 13)
  infoReserved : Fin (2 ^ 4)
  descriptors : List UInt8
  streams : List MapStream
  crc : UInt32
  fits : FitsSection (bigEndian 2 (pcrReserved * 2 ^ 13 + pcrPid) ++
    (bigEndian 2 (infoReserved * 2 ^ 12 + descriptors.length) ++
      (descriptors ++ streams.flatMap MapStream.bytes)))

namespace PmtTable

def body (table : PmtTable) : List UInt8 :=
  bigEndian 2 (table.pcrReserved * 2 ^ 13 + table.pcrPid) ++
    (bigEndian 2 (table.infoReserved * 2 ^ 12 + table.descriptors.length) ++
      (table.descriptors ++ table.streams.flatMap MapStream.bytes))

def encode (table : PmtTable) : List UInt8 :=
  encodeSection table.header table.body table.crc

/-- What a parser with room for 32 streams should make of it. -/
def parsed (table : PmtTable) : PmtInfo where
  programNumber := table.header.extension
  pcrPid := UInt16.ofNat table.pcrPid
  streams := (table.streams.take 32).map MapStream.parsed

theorem psipParsePmt_encode (table : PmtTable) : psipParsePmt table.encode = some table.parsed := by
  have fits : FitsSection table.body := table.fits
  have length : table.body.length =
      4 + table.descriptors.length + (table.streams.flatMap MapStream.bytes).length := by
    simp only [body, List.length_append, length_bigEndian]
    omega
  have small : sectionLength table.body < 2 ^ 12 := fits
  rw [sectionLength, length] at small
  have stands : StandsAt table.encode 8 table.body := standsAt_body _ _ _
  have info := stands.right
  have streams := info.right.right
  simp only [length_bigEndian] at info streams
  have pcr : (rd16 table.encode 8 &&& 0x1FFF).toNat = table.pcrPid :=
    toNat_rd16_and stands.left rfl (by decide) table.pcrPid.isLt
  have skipped : (rd16 table.encode 10 &&& 0x0FFF).toNat = table.descriptors.length :=
    toNat_rd16_and info.left rfl (by decide) (by omega)
  have last : 3 + sectionLength table.body - 4 =
      12 + table.descriptors.length + (table.streams.flatMap MapStream.bytes).length := by
    rw [sectionLength, length]
    omega
  have header := headerRead (standsAt_header table.header table.body table.crc) fits
  rw [psipParsePmt, encode, sectionTotal_encodeSection fits, Option.map_some, ← encode, skipped,
    last, pmtStreams_read streams (by omega), parsed, Option.some.injEq, PmtInfo.mk.injEq]
  refine ⟨header.extension, UInt16.toNat_inj.mp ?_, rfl⟩
  have bound := table.pcrPid.isLt
  rw [pcr, UInt16.toNat_ofNat']
  omega

end PmtTable

def PmtStream.isVideo (stream : PmtStream) : Bool :=
  stream.streamType == 0x02 || stream.streamType == 0x1B

def PmtStream.isAudio (stream : PmtStream) : Bool :=
  stream.streamType == 0x81 || stream.streamType == 0x0F

namespace PickedAv

/-- The stream that was picked as video. -/
def video (picked : PickedAv) : Option PmtStream :=
  if picked.haveVideo then some ⟨picked.videoStreamType, picked.videoPid⟩ else none

/-- The stream that was picked as audio. -/
def audio (picked : PickedAv) : Option PmtStream :=
  if picked.audioPid = 0 then none else some ⟨picked.audioStreamType, picked.audioPid⟩

theorem video_stream (picked : PickedAv) (stream : PmtStream) :
    (picked.stream stream).video = picked.video.or (if stream.isVideo then some stream else none) := by
  rw [PickedAv.stream, ← PmtStream.isVideo, ← PmtStream.isAudio]
  cases have_ : picked.haveVideo <;> cases kind : stream.isVideo <;>
    cases stream.isAudio <;> cases picked.audioPid == 0 <;> simp [video, have_]

theorem isVideo_of_isAudio {stream : PmtStream} (audio : stream.isAudio = true) :
    stream.isVideo = false := by
  rw [PmtStream.isAudio, Bool.or_eq_true, beq_iff_eq, beq_iff_eq] at audio
  rcases audio with same | same <;> rw [PmtStream.isVideo, same] <;> rfl

theorem audio_stream (picked : PickedAv) {stream : PmtStream}
    (hasPid : stream.isAudio = true → stream.elementaryPid ≠ 0) :
    (picked.stream stream).audio = picked.audio.or (if stream.isAudio then some stream else none) := by
  rw [PickedAv.stream, ← PmtStream.isVideo, ← PmtStream.isAudio]
  cases kind : stream.isAudio with
  | false =>
      cases picked.haveVideo <;> cases stream.isVideo <;> cases picked.audioPid == 0 <;>
        simp [audio]
  | true =>
      have pid := hasPid kind
      rw [isVideo_of_isAudio kind]
      by_cases free : picked.audioPid = 0 <;> simp [audio, free, pid]

theorem video_foldl (streams : List PmtStream) (picked : PickedAv) :
    (streams.foldl PickedAv.stream picked).video =
      picked.video.or (streams.find? PmtStream.isVideo) := by
  induction streams generalizing picked with
  | nil => exact Option.or_none.symm
  | cons stream streams ih =>
      rw [List.foldl_cons, ih, video_stream, Option.or_assoc, List.find?_cons]
      cases stream.isVideo <;> rfl

theorem audio_foldl {streams : List PmtStream}
    (havePids : ∀ stream ∈ streams, stream.isAudio = true → stream.elementaryPid ≠ 0)
    (picked : PickedAv) :
    (streams.foldl PickedAv.stream picked).audio =
      picked.audio.or (streams.find? PmtStream.isAudio) := by
  induction streams generalizing picked with
  | nil => exact Option.or_none.symm
  | cons stream streams ih =>
      obtain ⟨hasPid, later⟩ := List.forall_mem_cons.mp havePids
      rw [List.foldl_cons, ih later, audio_stream picked hasPid, Option.or_assoc, List.find?_cons]
      cases stream.isAudio <;> rfl

/-- Streams that are no video leave what was picked as video. -/
theorem foldl_no_video {streams : List PmtStream}
    (none : ∀ stream ∈ streams, stream.isVideo = false) (picked : PickedAv) :
    (streams.foldl PickedAv.stream picked).videoPid = picked.videoPid ∧
      (streams.foldl PickedAv.stream picked).videoStreamType = picked.videoStreamType := by
  induction streams generalizing picked with
  | nil => exact ⟨rfl, rfl⟩
  | cons stream streams ih =>
      obtain ⟨noVideo, later⟩ := List.forall_mem_cons.mp none
      obtain ⟨pid, type⟩ := ih later (picked.stream stream)
      rw [List.foldl_cons, pid, type, PickedAv.stream, ← PmtStream.isVideo, ← PmtStream.isAudio,
        noVideo, Bool.and_false, if_neg Bool.false_ne_true]
      split <;> exact ⟨rfl, rfl⟩

/-- Streams that are no audio leave what was picked as audio. -/
theorem foldl_no_audio {streams : List PmtStream}
    (none : ∀ stream ∈ streams, stream.isAudio = false) (picked : PickedAv) :
    (streams.foldl PickedAv.stream picked).audioPid = picked.audioPid ∧
      (streams.foldl PickedAv.stream picked).audioStreamType = picked.audioStreamType := by
  induction streams generalizing picked with
  | nil => exact ⟨rfl, rfl⟩
  | cons stream streams ih =>
      obtain ⟨noAudio, later⟩ := List.forall_mem_cons.mp none
      obtain ⟨pid, type⟩ := ih later (picked.stream stream)
      rw [List.foldl_cons, pid, type, PickedAv.stream, ← PmtStream.isVideo, ← PmtStream.isAudio,
        noAudio, Bool.and_false, if_neg Bool.false_ne_true]
      split <;> exact ⟨rfl, rfl⟩

end PickedAv

/-- The first stream of each kind is picked, if the audio streams have PIDs. -/
structure PicksFirst (pmt : PmtInfo) (picked : PickedAv) : Prop where
  present : picked.haveVideo = true ↔ ∃ stream ∈ pmt.streams, stream.isVideo = true
  video : ∀ stream, pmt.streams.find? PmtStream.isVideo = some stream →
    picked.videoPid = stream.elementaryPid ∧ picked.videoStreamType = stream.streamType
  audio : (∀ stream ∈ pmt.streams, stream.isAudio = true → stream.elementaryPid ≠ 0) →
    ∀ stream, pmt.streams.find? PmtStream.isAudio = some stream →
      picked.audioPid = stream.elementaryPid ∧ picked.audioStreamType = stream.streamType
  noVideo : pmt.streams.find? PmtStream.isVideo = none →
    picked.videoPid = 0 ∧ picked.videoStreamType = 0
  noAudio : pmt.streams.find? PmtStream.isAudio = none →
    picked.audioPid = 0 ∧ picked.audioStreamType = 0

theorem picksFirst_psipPmtPickAv (pmt : PmtInfo) : PicksFirst pmt (psipPmtPickAv pmt) := by
  have video : (psipPmtPickAv pmt).video = pmt.streams.find? PmtStream.isVideo :=
    PickedAv.video_foldl pmt.streams {}
  constructor
  · rw [← List.find?_isSome, ← video, PickedAv.video]
    cases (psipPmtPickAv pmt).haveVideo <;> simp
  · intro stream found
    rw [found, PickedAv.video] at video
    split at video
    · cases video
      exact ⟨rfl, rfl⟩
    · cases video
  · intro havePids stream found
    have audio : (psipPmtPickAv pmt).audio = pmt.streams.find? PmtStream.isAudio :=
      PickedAv.audio_foldl havePids {}
    rw [found, PickedAv.audio] at audio
    split at audio
    · cases audio
    · cases audio
      exact ⟨rfl, rfl⟩
  · intro none
    exact PickedAv.foldl_no_video (by simpa using none) {}
  · intro none
    exact PickedAv.foldl_no_audio (by simpa using none) {}

/-- The program tables come back as they were sent, and the first streams of
the right types are picked from the program map that was read. -/
theorem program_tables_read_back (pat : PatTable) (maxOut : Nat) (pmt : PmtTable) :
    psipParsePat pat.encode maxOut =
        some (((pat.items.filter fun item => item.programNumber ≠ 0).map PatItem.entry).take
          maxOut) ∧
      psipParsePmt pmt.encode = some pmt.parsed ∧
      PicksFirst pmt.parsed (psipPmtPickAv pmt.parsed) :=
  ⟨psipParsePat_encode pat maxOut, pmt.psipParsePmt_encode, picksFirst_psipPmtPickAv pmt.parsed⟩

end HdhrEmu
