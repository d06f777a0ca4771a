import HdhrEmu.ChannelTable
import HdhrEmu.Lib.Json
import HdhrEmu.Lib.M3u
import HdhrEmu.Lib.TextBuffer
import HdhrEmu.StoredChannels

/-!
# The lineup documents

`/lineup.json` and `/lineup.m3u` list a sorted snapshot of the channel
database.  Both handlers format one line after another into a buffer that is
made larger when it runs low, and both put the short names of the channels
between quotation marks.  The playlist replaces quotation marks in a name; the
JSON document takes the name as it is.
-/

namespace HdhrEmu

open CString CheckedMemory

/-- The local address of the connection, if the kernel tells. -/
abbrev LocalAddress := Option (UInt8 × UInt8 × UInt8 × UInt8)

/-- `local_ip_for_peer`, and what stands in for the address when it fails. -/
def localIpForPeer : LocalAddress → CStr
  | some (a, b, c, d) =>
      decimal a.toNat ++ '.' :: (decimal b.toNat ++ '.' ::
        (decimal c.toNat ++ '.' :: decimal d.toNat))
  | none => "0.0.0.0".toList

/-- `"%d.%d"`. -/
def guideNumber (ch : DvbChannel) : CStr :=
  decimalInt ch.major ++ '.' :: decimalInt ch.minor

/-- `"http://%s:80/auto/v%d.%d"`. -/
def autoUrl (ip : CStr) (ch : DvbChannel) : CStr :=
  "http://".toList ++ (ip ++ (":80/auto/v".toList ++ guideNumber ch))

/-- `"\"%s\": \"%s\""`. -/
def jsonMember (name value : CStr) : CStr :=
  '"' :: (name ++ '"' :: ':' :: ' ' :: '"' :: (value ++ ['"']))

def jsonObject (ip : CStr) (ch : DvbChannel) : CStr :=
  '{' :: (jsonMember "GuideNumber".toList (guideNumber ch) ++ ',' :: ' ' ::
    (jsonMember "GuideName".toList ch.shortName ++ ',' :: ' ' ::
      (jsonMember "URL".toList (autoUrl ip ch) ++ ['}'])))

/-- The line of a channel in `handle_lineup_json`. -/
def jsonLine (ip : CStr) (ch : DvbChannel) (last : Bool) : CStr :=
  ' ' :: ' ' :: (jsonObject ip ch ++ ((if last then [] else [',']) ++ ['\n']))

/-- `attr_name`: the name with its quotation marks replaced. -/
def attrName (name : CStr) : CStr :=
  name.map fun character => if character = '"' then '\'' else character

/-- The attributes of a channel in the playlist. -/
def tvgAttributes (ch : DvbChannel) : List (CStr × CStr) :=
  [("tvg-chno".toList, guideNumber ch), ("tvg-name".toList, attrName ch.shortName)]

/-- The two lines of a channel in `handle_lineup_m3u`. -/
def m3uLine (ip : CStr) (ch : DvbChannel) (_last : Bool) : CStr :=
  M3u.info "-1".toList (tvgAttributes ch) (guideNumber ch ++ ' ' :: ch.shortName) ++
    '\n' :: (autoUrl ip ch ++ ['\n'])

inductive LineupReply
  | document (body : CStr)
  | serverError
  deriving DecidableEq

/-- The loop over the snapshot. -/
def appendLines (heap : Heap) (line : DvbChannel → Bool → CStr) :
    TextBuffer → List DvbChannel → Checked (Option TextBuffer)
  | buffer, [] => .ok (some buffer)
  | buffer, ch :: channels =>
      match buffer.reserve heap 512 (2 * buffer.cap) with
      | none => .ok none
      | some buffer =>
          (buffer.append (line ch channels.isEmpty)).bind fun buffer =>
            appendLines heap line buffer channels

/-- `sizeof(struct dvb_channel)`. -/
def sizeofDvbChannel : Nat := 52

/-- What both handlers do before they close the document: a buffer, the first
line, a snapshot and a line for each channel. -/
def openLineup (heap : Heap) (db : ChannelDb) (size : Nat) (first : CStr)
    (line : DvbChannel → Bool → CStr) : Checked (Option TextBuffer) :=
  match heap.malloc size with
  | none => .ok none
  | some cells =>
      (TextBuffer.append ⟨cells, 0⟩ first).bind fun buffer =>
        match heap.malloc (dvbChannelMax * sizeofDvbChannel) with
        | none => .ok none
        | some _ => appendLines heap line buffer (dvbChannelsSorted db dvbChannelMax)

/-- `handle_lineup_json`. -/
def handleLineupJson (heap : Heap) (ip : CStr) (db : ChannelDb) : Checked LineupReply :=
  (openLineup heap db 65536 "[\n".toList (jsonLine ip)).bind fun opened =>
    match opened.bind fun buffer => buffer.reserve heap 8 (buffer.cap + 8) with
    | none => .ok .serverError
    | some buffer =>
        (buffer.append "]\n".toList).bind fun buffer =>
          (cString buffer.cells).map .document

/-- `handle_lineup_m3u`. -/
def handleLineupM3u (heap : Heap) (ip : CStr) (db : ChannelDb) : Checked LineupReply :=
  (openLineup heap db 16384 "#EXTM3U\n".toList (m3uLine ip)).bind fun opened =>
    match opened with
    | none => .ok .serverError
    | some buffer =>
        if buffer.off ≤ buffer.cap then .ok (.document (buffer.cells.take buffer.off))
        else .error (.read buffer.cap)

def linesText (line : DvbChannel → Bool → CStr) : List DvbChannel → CStr
  | [] => []
  | ch :: channels => line ch channels.isEmpty ++ linesText line channels

def jsonText (ip : CStr) (channels : List DvbChannel) : CStr :=
  "[\n".toList ++ (linesText (jsonLine ip) channels ++ "]\n".toList)

def m3uText (ip : CStr) (channels : List DvbChannel) : CStr :=
  "#EXTM3U\n".toList ++ linesText (m3uLine ip) channels

theorem length_guideNumber {ch : DvbChannel} (storable : StorableChannel ch) :
    (guideNumber ch).length ≤ 23 := by
  have major := length_decimalInt storable.major
  have minor := length_decimalInt storable.minor
  rw [guideNumber, List.length_append, List.length_cons]
  omega

theorem localIpForPeer_some (a b c d : UInt8) :
    localIpForPeer (some (a, b, c, d)) = decimal a.toNat ++ '.' :: (decimal b.toNat ++ '.' ::
      (decimal c.toNat ++ '.' :: decimal d.toNat)) :=
  rfl

theorem length_localIpForPeer (address : LocalAddress) : (localIpForPeer address).length ≤ 15 := by
  have part (v : UInt8) : (decimal v.toNat).length ≤ 3 :=
    length_decimal (Nat.lt_trans v.toNat_lt (by decide)) (by decide)
  match address with
  | none => decide
  | some (a, b, c, d) =>
      have first := part a
      have second := part b
      have third := part c
      have fourth := part d
      simp only [localIpForPeer_some, List.length_append, List.length_cons]
      omega

theorem length_autoUrl {ip : CStr} {ch : DvbChannel} (address : ip.length ≤ 15)
    (storable : StorableChannel ch) : (autoUrl ip ch).length ≤ 55 := by
  have number := length_guideNumber storable
  unfold autoUrl
  rw [List.length_append, List.length_append, List.length_append,
    show "http://".toList.length = 7 from rfl, show ":80/auto/v".toList.length = 10 from rfl]
  omega

theorem length_jsonMember (name value : CStr) :
    (jsonMember name value).length = name.length + value.length + 6 := by
  simp only [jsonMember, List.length_append, List.length_cons, List.length_nil]
  omega

theorem length_jsonObject {ip : CStr} {ch : DvbChannel} (address : ip.length ≤ 15)
    (storable : StorableChannel ch) : (jsonObject ip ch).length ≤ 150 := by
  have number := length_guideNumber storable
  have name := storable.short
  have url := length_autoUrl address storable
  simp only [jsonObject, List.length_append, List.length_cons, List.length_nil, length_jsonMember,
    show "GuideNumber".toList.length = 11 from rfl, show "GuideName".toList.length = 9 from rfl,
    show "URL".toList.length = 3 from rfl]
  omega

theorem length_jsonLine {ip : CStr} {ch : DvbChannel} (address : ip.length ≤ 15)
    (storable : StorableChannel ch) (last : Bool) : (jsonLine ip ch last).length < 512 := by
  have object := length_jsonObject address storable
  cases last with
  | false =>
      simp only [jsonLine, List.length_append, List.length_cons, List.length_nil,
        Bool.false_eq_true, if_false]
      omega
  | true =>
      simp only [jsonLine, List.length_append, List.length_cons, List.length_nil, if_true]
      omega

@[simp]
theorem length_attrName (name : CStr) : (attrName name).length = name.length :=
  List.length_map _

theorem length_m3uLine {ip : CStr} {ch : DvbChannel} (address : ip.length ≤ 15)
    (storable : StorableChannel ch) (last : Bool) : (m3uLine ip ch last).length < 512 := by
  have number := length_guideNumber storable
  have name := storable.short
  have url := length_autoUrl address storable
  unfold m3uLine M3u.info
  simp only [M3u.attributeText, tvgAttributes, List.flatMap_cons,
    List.flatMap_nil, List.length_append, List.length_cons, List.length_nil, length_attrName,
    show "#EXTINF:".toList.length = 8 from rfl, show "-1".toList.length = 2 from rfl,
    show "tvg-chno".toList.length = 8 from rfl, show "tvg-name".toList.length = 8 from rfl]
  omega

/-- From `-` to `z` in the code there are letters, digits and the signs of
numbers and addresses; the backslash is not one of them. -/
def inAddress (character : Char) : Bool :=
  decide ('-' ≤ character) && decide (character ≤ 'z') && character != '\\'

theorem inAddress_decimal {n : Nat} {character : Char} (member : character ∈ decimal n) :
    inAddress character = true := by
  have digit := isDigit_decimal member
  simp only [Char.isDigit, Bool.and_eq_true, decide_eq_true_eq] at digit
  have notBackslash : character ≠ '\\' := by
    rintro rfl
    exact absurd digit.2 (by decide)
  rw [inAddress, decide_eq_true (Char.le_trans (by decide) digit.1),
    decide_eq_true (Char.le_trans digit.2 (by decide)), bne_iff_ne.mpr notBackslash]
  rfl

theorem inAddress_guideNumber {ch : DvbChannel} {character : Char}
    (member : character ∈ guideNumber ch) : inAddress character = true := by
  have part {i : Int} (inside : character ∈ decimalInt i) : inAddress character = true := by
    unfold decimalInt at inside
    split at inside
    · rcases List.mem_cons.mp inside with rfl | digit
      · decide
      · exact inAddress_decimal digit
    · exact inAddress_decimal inside
  rw [guideNumber, List.mem_append, List.mem_cons] at member
  rcases member with major | rfl | minor
  · exact part major
  · decide
  · exact part minor

theorem inAddress_localIpForPeer {address : LocalAddress} {character : Char}
    (member : character ∈ localIpForPeer address) : inAddress character = true := by
  match address, member with
  | none, member =>
      exact List.all_eq_true.mp (by decide : (localIpForPeer none).all inAddress = true) _ member
  | some (a, b, c, d), member =>
      simp only [localIpForPeer_some, List.mem_append, List.mem_cons] at member
      rcases member with digit | rfl | digit | rfl | digit | rfl | digit
      · exact inAddress_decimal digit
      · decide
      · exact inAddress_decimal digit
      · decide
      · exact inAddress_decimal digit
      · decide
      · exact inAddress_decimal digit

theorem inAddress_autoUrl {ip : CStr} {ch : DvbChannel}
    (address : ∀ character ∈ ip, inAddress character = true) {character : Char}
    (member : character ∈ autoUrl ip ch) : inAddress character = true := by
  unfold autoUrl at member
  rw [List.mem_append, List.mem_append, List.mem_append] at member
  rcases member with scheme | host | path | number
  · exact List.all_eq_true.mp (by decide : "http://".toList.all inAddress = true) _ scheme
  · exact address _ host
  · exact List.all_eq_true.mp (by decide : ":80/auto/v".toList.all inAddress = true) _ path
  · exact inAddress_guideNumber number

theorem not_mem_guideNumber (ch : DvbChannel) {character : Char}
    (outside : inAddress character = false) : character ∉ guideNumber ch := by
  intro member
  rw [inAddress_guideNumber member] at outside
  cases outside

/-- A buffer in a loop that has `more` lines to come. -/
structure HasRoom (buffer : TextBuffer) (text : CStr) (more : Nat) : Prop where
  holds : buffer.Holds text
  low : 512 ≤ buffer.cap
  high : buffer.cap ≤ 2 * (512 * 512)
  short : text.length + 512 * more ≤ 512 * 512

/-- One line: there is room for it, as it is or in a larger block. -/
theorem HasRoom.line {buffer next : TextBuffer} {text more : CStr} {lines : Nat}
    (room : HasRoom buffer text (lines + 1)) {heap : Heap}
    (reserved : buffer.reserve heap 512 (2 * buffer.cap) = some next) (short : more.length < 512) :
    ∃ after, next.append more = .ok after ∧ HasRoom after (text ++ more) lines := by
  have bounded : text.length + 512 ≤ 512 * 512 :=
    Nat.le_trans (Nat.add_le_add_left (Nat.le_mul_of_pos_right 512 lines.succ_pos) _) room.short
  have inside := room.holds.room
  have low := room.low
  have high := room.high
  obtain ⟨holds, enough, grown⟩ := room.holds.reserve reserved (by omega) (by omega) (by omega)
  obtain ⟨after, appended, holdsMore, cap, -⟩ :=
    @TextBuffer.Holds.append next text holds more (by omega)
  refine ⟨after, appended, holdsMore, by omega, by omega, ?_⟩
  have total := room.short
  rw [List.length_append]
  omega

theorem appendLines_spec {heap : Heap} {line : DvbChannel → Bool → CStr} {buffer : TextBuffer}
    {text : CStr} {channels : List DvbChannel}
    (short : ∀ ch ∈ channels, ∀ last, (line ch last).length < 512)
    (room : HasRoom buffer text channels.length) :
    ((∃ size, heap.grants size = false) ∧ appendLines heap line buffer channels = .ok none) ∨
      ∃ after, appendLines heap line buffer channels = .ok (some after) ∧
        HasRoom after (text ++ linesText line channels) 0 := by
  induction channels generalizing buffer text with
  | nil =>
      right
      refine ⟨buffer, rfl, ?_⟩
      rw [linesText, List.append_nil]
      exact room
  | cons ch channels ih =>
      rw [List.forall_mem_cons] at short
      cases reserved : buffer.reserve heap 512 (2 * buffer.cap) with
      | none =>
          left
          refine ⟨TextBuffer.refused_of_reserve reserved, ?_⟩
          rw [appendLines, reserved]
      | some next =>
          obtain ⟨after, appended, roomAfter⟩ :=
            room.line reserved (short.1 channels.isEmpty)
          rw [appendLines, reserved, linesText, ← List.append_assoc]
          simp only [appended, Except.bind]
          exact ih short.2 roomAfter

theorem length_dvbChannelsSorted (db : ChannelDb) :
    (dvbChannelsSorted db dvbChannelMax).length ≤ 256 := by
  rw [dvbChannelsSorted, (perm_qsortMajorMinor _).length_eq]
  exact List.length_take_le _ _

theorem openLineup_spec {heap : Heap} {db : ChannelDb} {size : Nat} {first : CStr}
    {line : DvbChannel → Bool → CStr} (low : 512 ≤ size) (high : size ≤ 2 * (512 * 512))
    (header : first.length < 512)
    (short : ∀ ch ∈ dvbChannelsSorted db dvbChannelMax, ∀ last, (line ch last).length < 512) :
    ((∃ size, heap.grants size = false) ∧ openLineup heap db size first line = .ok none) ∨
      ∃ after, openLineup heap db size first line = .ok (some after) ∧
        HasRoom after (first ++ linesText line (dvbChannelsSorted db dvbChannelMax)) 0 := by
  cases granted : heap.malloc size with
  | none =>
      left
      refine ⟨Heap.refused_of_malloc granted, ?_⟩
      rw [openLineup, granted]
  | some cells =>
      obtain ⟨holds, length⟩ := TextBuffer.holds_malloc granted (by omega) (by omega)
      have empty : (⟨cells, 0⟩ : TextBuffer).cap = size := length
      obtain ⟨buffer, appended, holdsFirst, cap, -⟩ :=
        @TextBuffer.Holds.append ⟨cells, 0⟩ [] holds first (by rw [empty, List.length_nil]; omega)
      rw [openLineup, granted]
      simp only [appended, Except.bind]
      cases snapshot : heap.malloc (dvbChannelMax * sizeofDvbChannel) with
      | none => exact Or.inl ⟨Heap.refused_of_malloc snapshot, rfl⟩
      | some _ =>
          have count := length_dvbChannelsSorted db
          exact appendLines_spec short ⟨holdsFirst, by omega, by omega, by omega⟩

theorem terminator_not_mem_jsonMember {name value : CStr} (cleanName : terminator ∉ name)
    (cleanValue : terminator ∉ value) : terminator ∉ jsonMember name value := by
  simp only [jsonMember, List.mem_cons, List.mem_append, List.not_mem_nil, not_or]
  exact ⟨by decide, cleanName, by decide, by decide, by decide, by decide, cleanValue, by decide,
    not_false⟩

theorem terminator_not_mem_jsonLine {ip : CStr} {ch : DvbChannel}
    (address : ∀ character ∈ ip, inAddress character = true) (storable : StorableChannel ch)
    (last : Bool) : terminator ∉ jsonLine ip ch last := by
  have number := terminator_not_mem_jsonMember
    (by decide : terminator ∉ "GuideNumber".toList) (not_mem_guideNumber ch (by decide))
  have name := terminator_not_mem_jsonMember
    (by decide : terminator ∉ "GuideName".toList) storable.unterminated
  have url := terminator_not_mem_jsonMember (by decide : terminator ∉ "URL".toList)
    (fun member => absurd (@inAddress_autoUrl ip ch address _ member) (by decide))
  have separator : terminator ∉ if last then [] else [','] := by
    cases last <;> decide
  simp only [jsonLine, jsonObject, List.mem_cons, List.mem_append, List.not_mem_nil, not_or]
  exact ⟨by decide, by decide, ⟨by decide, number, by decide, by decide, name, by decide,
    by decide, url, by decide, not_false⟩, separator, by decide, not_false⟩

theorem terminator_not_mem_jsonText {ip : CStr} {channels : List DvbChannel}
    (address : ∀ character ∈ ip, inAddress character = true)
    (storable : ∀ ch ∈ channels, StorableChannel ch) : terminator ∉ jsonText ip channels := by
  have lines : terminator ∉ linesText (jsonLine ip) channels := by
    induction channels with
    | nil => exact List.not_mem_nil
    | cons ch channels ih =>
        rw [List.forall_mem_cons] at storable
        rw [linesText, List.mem_append, not_or]
        exact ⟨terminator_not_mem_jsonLine address storable.1 _, ih storable.2⟩
  unfold jsonText
  rw [List.mem_append, List.mem_append, not_or, not_or]
  exact ⟨by decide, lines, by decide⟩

/-- The handler serves this document, unless there is no memory. -/
def Answers (handler : Heap → Checked LineupReply) (body : CStr) : Prop :=
  ∀ heap, ((∃ size, heap.grants size = false) ∧ handler heap = .ok .serverError) ∨
    handler heap = .ok (.document body)

/-- What the handlers are called with. -/
structure Lineup where
  db : ChannelDb
  stored : StoredDb db
  address : LocalAddress

namespace Lineup

def ip (lineup : Lineup) : CStr :=
  localIpForPeer lineup.address

def sorted (lineup : Lineup) : List DvbChannel :=
  dvbChannelsSorted lineup.db dvbChannelMax

theorem perm_sorted (lineup : Lineup) : lineup.sorted.Perm lineup.db.channels := by
  rw [sorted, dvbChannelsSorted, List.take_of_length_le lineup.db.bounded]
  exact perm_qsortMajorMinor _

theorem storable_sorted (lineup : Lineup) : ∀ ch ∈ lineup.sorted, StorableChannel ch :=
  fun ch member => lineup.stored.storable ch (lineup.perm_sorted.mem_iff.mp member)

/-- The document is served as a whole, with room for its last line. -/
theorem answers_json (lineup : Lineup) :
    Answers (handleLineupJson · lineup.ip lineup.db) (jsonText lineup.ip lineup.sorted) := by
  intro heap
  dsimp only
  have short (ch : DvbChannel) (member : ch ∈ lineup.sorted) (last : Bool) :=
    length_jsonLine (length_localIpForPeer lineup.address) (lineup.storable_sorted ch member) last
  rcases @openLineup_spec heap lineup.db 65536 "[\n".toList (jsonLine lineup.ip)
    (by decide) (by decide) (by decide) short with ⟨refused, opened⟩ | ⟨buffer, opened, room⟩
  · left
    refine ⟨refused, ?_⟩
    unfold handleLineupJson
    rw [opened]
    rfl
  · unfold handleLineupJson
    rw [opened]
    simp only [Except.bind, Option.bind_some]
    cases reserved : buffer.reserve heap 8 (buffer.cap + 8) with
    | none => exact Or.inl ⟨TextBuffer.refused_of_reserve reserved, rfl⟩
    | some larger =>
        right
        have inside := room.holds.room
        have low := room.low
        have high := room.high
        obtain ⟨holds, enough, -⟩ :=
          room.holds.reserve reserved (by omega) (by omega) (by omega)
        obtain ⟨closed, appended, whole, -, terminated⟩ :=
          @TextBuffer.Holds.append larger _ holds "]\n".toList
            (Nat.lt_of_lt_of_le (Nat.add_lt_add_left (by decide) _) enough)
        have text : ("[\n".toList ++ linesText (jsonLine lineup.ip)
            (dvbChannelsSorted lineup.db dvbChannelMax)) ++ "]\n".toList =
              jsonText lineup.ip lineup.sorted := List.append_assoc _ _ _
        rw [text] at whole terminated
        have read := whole.cString terminated
          (terminator_not_mem_jsonText (fun _ => inAddress_localIpForPeer) lineup.storable_sorted)
        simp only [appended, read]
        rfl

/-- The playlist is served as a whole. -/
theorem answers_m3u (lineup : Lineup) :
    Answers (handleLineupM3u · lineup.ip lineup.db) (m3uText lineup.ip lineup.sorted) := by
  intro heap
  dsimp only
  have short (ch : DvbChannel) (member : ch ∈ lineup.sorted) (last : Bool) :=
    length_m3uLine (length_localIpForPeer lineup.address) (lineup.storable_sorted ch member) last
  rcases @openLineup_spec heap lineup.db 16384 "#EXTM3U\n".toList (m3uLine lineup.ip)
    (by decide) (by decide) (by decide) short with ⟨refused, opened⟩ | ⟨buffer, opened, room⟩
  · left
    refine ⟨refused, ?_⟩
    unfold handleLineupM3u
    rw [opened]
    rfl
  · right
    have inside := room.holds.room
    unfold handleLineupM3u
    rw [opened]
    simp only [Except.bind]
    rw [if_pos (by rw [room.holds.off]; exact Nat.le_of_lt inside), room.holds.off,
      room.holds.text]
    rfl

end Lineup

end HdhrEmu
