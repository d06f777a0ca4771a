import HdhrEmu.Lib.TextBuffer
import HdhrEmu.WebPrograms
import HdhrEmu.WebReplies

/-!
# The status of a tuner as JSON

`append_tuner_json` and `handle_stats_json` put replies of the control protocol
together to a JSON object, in a buffer of fixed size.  The buffer is always
large enough.  The object is in JSON unless a number in the debug reply is
infinite or none at all, which only happens to numbers in the target, or a name
in the program list is not in UTF-8.
-/

namespace HdhrEmu

open CString CheckedMemory Interleaving

/-- `%04x` of a byte. -/
def lowerHex4 (byte : Nat) : CStr :=
  [Json.lowerDigit (byte / 4096), Json.lowerDigit (byte / 256 % 16),
    Json.lowerDigit (byte / 16 % 16), Json.lowerDigit (byte % 16)]

def jsonEscapeAppend (buffer : TextBuffer) : CStr → Checked TextBuffer
  | [] => .ok buffer
  | character :: s =>
      if buffer.off + 6 < buffer.cap then
        (if character = '"' ∨ character = '\\' then
          (buffer.put '\\').bind fun buffer => buffer.put character
        else if character.toNat < 0x20 then
          buffer.append ('\\' :: 'u' :: lowerHex4 character.toNat)
        else buffer.put character).bind fun buffer => jsonEscapeAppend buffer s
      else .ok buffer

/-- A call that writes: `snprintf` or `json_escape_append`. -/
inductive Piece
  | print (text : CStr)
  | escape (text : CStr)

namespace Piece

def write (buffer : TextBuffer) : Piece → Checked TextBuffer
  | print text => buffer.append text
  | escape text => jsonEscapeAppend buffer text

/-- What it is to write. -/
def text : Piece → CStr
  | print text => text
  | escape text => Json.escapeText text

end Piece

def writeAll (buffer : TextBuffer) : List Piece → Checked TextBuffer
  | [] => .ok buffer
  | piece :: pieces => (piece.write buffer).bind fun buffer => writeAll buffer pieces

section Writing

variable {buffer : TextBuffer} {text : CStr}

theorem holds_escapeChar (holds : buffer.Holds text) (character : Char)
    (fits : text.length + 6 < buffer.cap) :
    ∃ next, (if character = '"' ∨ character = '\\' then
          (buffer.put '\\').bind fun buffer => buffer.put character
        else if character.toNat < 0x20 then
          buffer.append ('\\' :: 'u' :: lowerHex4 character.toNat)
        else buffer.put character) = .ok next ∧
      next.Holds (text ++ Json.escapeChar character) ∧ next.cap = buffer.cap := by
  unfold Json.escapeChar
  split
  · obtain ⟨middle, wrote, holdsMiddle, same⟩ := holds.put '\\' (by omega)
    have room : (text ++ ['\\']).length + 1 < middle.cap := by
      rw [same, List.length_append, List.length_singleton]
      omega
    obtain ⟨next, wroteNext, holdsNext, sameNext⟩ := holdsMiddle.put character room
    refine ⟨next, ?_, ?_, sameNext.trans same⟩
    · rw [wrote]
      exact wroteNext
    · rw [List.append_assoc] at holdsNext
      exact holdsNext
  · split
    · rename_i control
      have digits : lowerHex4 character.toNat = ['0', '0', Json.lowerDigit (character.toNat / 16),
          Json.lowerDigit (character.toNat % 16)] := by
        have high : character.toNat / 4096 = 0 ∧ character.toNat / 256 % 16 = 0 ∧
            character.toNat / 16 % 16 = character.toNat / 16 := by omega
        rw [lowerHex4, high.1, high.2.1, high.2.2]
        rfl
      rw [digits]
      obtain ⟨next, wrote, holdsNext, same, -⟩ := holds.append (show text.length +
        ['\\', 'u', '0', '0', Json.lowerDigit (character.toNat / 16),
          Json.lowerDigit (character.toNat % 16)].length < buffer.cap from fits)
      exact ⟨next, wrote, holdsNext, same⟩
    · exact holds.put character (by omega)

/-- The loop does not stop before the end of the text, if there is room. -/
theorem holds_jsonEscapeAppend (holds : buffer.Holds text) {s : CStr}
    (fits : text.length + (Json.escapeText s).length + 6 ≤ buffer.cap) :
    ∃ next, jsonEscapeAppend buffer s = .ok next ∧ next.Holds (text ++ Json.escapeText s) ∧
      next.cap = buffer.cap := by
  induction s generalizing buffer text with
  | nil => exact ⟨buffer, rfl, by simpa [Json.escapeText] using holds, rfl⟩
  | cons character s ih =>
      have some_ : 0 < (Json.escapeChar character).length := by
        unfold Json.escapeChar
        split
        · simp
        · split <;> simp
      rw [Json.escapeText_cons, List.length_append] at fits
      obtain ⟨middle, wrote, holdsMiddle, same⟩ := holds_escapeChar holds character (by omega)
      have room : (text ++ Json.escapeChar character).length + (Json.escapeText s).length + 6 ≤
          middle.cap := by
        rw [same, List.length_append]
        omega
      obtain ⟨next, wroteNext, holdsNext, sameNext⟩ := ih holdsMiddle room
      refine ⟨next, ?_, ?_, sameNext.trans same⟩
      · rw [jsonEscapeAppend, if_pos (by rw [holds.off]; omega), wrote]
        exact wroteNext
      · rw [Json.escapeText_cons, ← List.append_assoc]
        exact holdsNext

/-- One call writes the whole text, if there is room for it. -/
theorem Piece.holds (holds : buffer.Holds text) (piece : Piece)
    (fits : text.length + piece.text.length + 6 ≤ buffer.cap) :
    ∃ next, piece.write buffer = .ok next ∧ next.Holds (text ++ piece.text) ∧
      next.cap = buffer.cap := by
  cases piece with
  | print more =>
      have room : text.length + more.length < buffer.cap := by
        rw [Piece.text] at fits
        omega
      obtain ⟨next, wrote, holdsNext, same, -⟩ := holds.append room
      exact ⟨next, wrote, holdsNext, same⟩
  | escape s => exact holds_jsonEscapeAppend holds fits

/-- All calls write their texts one behind the other, if there is room for them. -/
theorem holds_writeAll (holds : buffer.Holds text) {pieces : List Piece}
    (fits : text.length + (pieces.flatMap Piece.text).length + 6 ≤ buffer.cap) :
    ∃ next, writeAll buffer pieces = .ok next ∧ next.Holds (text ++ pieces.flatMap Piece.text) ∧
      next.cap = buffer.cap := by
  induction pieces generalizing buffer text with
  | nil => exact ⟨buffer, rfl, by simpa using holds, rfl⟩
  | cons piece pieces ih =>
      rw [List.flatMap_cons, List.length_append] at fits
      obtain ⟨middle, wrote, holdsMiddle, same⟩ := Piece.holds holds piece (by omega)
      have room : (text ++ piece.text).length + (pieces.flatMap Piece.text).length + 6 ≤
          middle.cap := by
        rw [same, List.length_append]
        omega
      obtain ⟨next, wroteNext, holdsNext, sameNext⟩ := ih holdsMiddle room
      refine ⟨next, ?_, ?_, sameNext.trans same⟩
      · rw [writeAll, wrote]
        exact wroteNext
      · rw [List.flatMap_cons, ← List.append_assoc]
        exact holdsNext

/-- After any of the calls the offset is where their texts end. -/
theorem off_writeAll (holds : buffer.Holds text) {pieces front : List Piece}
    (begun : front <+: pieces)
    (fits : text.length + (pieces.flatMap Piece.text).length + 6 ≤ buffer.cap) :
    Returns (writeAll buffer front) fun next =>
      next.off ≤ buffer.off + (pieces.flatMap Piece.text).length := by
  obtain ⟨behind, rfl⟩ := begun
  rw [List.flatMap_append, List.length_append] at fits
  have room : text.length + (front.flatMap Piece.text).length + 6 ≤ buffer.cap := by omega
  obtain ⟨next, wrote, holdsNext, -⟩ := holds_writeAll holds room
  refine ⟨next, wrote, ?_⟩
  show next.off ≤ _
  rw [holdsNext.off, holds.off, List.flatMap_append, List.length_append, List.length_append]
  omega

end Writing

/-- A state of a tuner, in any run and with any channels. -/
structure TunerState where
  world : World
  reached : ∃ db config, machine.Reachable Guard.all (start db) config ∧ config.shared = world

theorem TunerState.printed (state : TunerState) : state.world.tuner.Printed := by
  obtain ⟨db, config, reachable, same⟩ := state.reached
  rw [← same]
  exact printed_of_reachable reachable

/-- What the reply to a GET of `status` depends on. -/
structure StatusAnswer extends TunerState where
  bps : Nat
  pps : Nat

structure StreaminfoAnswer where
  db : ChannelDb
  stored : StoredDb db
  freq : UInt32

structure DebugAnswer extends TunerState where
  raw : Reading → RawStats

/-- The four calls of a poll, one after the other: the tuner may have gone on
in between, and every call may fail. -/
structure TunerPoll where
  status : Option StatusAnswer
  vchannel : Option TunerState
  streaminfo : Option StreaminfoAnswer
  debug : Option DebugAnswer

/-- `status`, of which either the call or the fallback is the value. -/
def statusOf : Option StatusAnswer → CStr
  | some answer => truncate replySize (answer.world.statusReply answer.bps answer.pps).text
  | none => "ch=none lock=none ss=0 snq=0 seq=0".toList

namespace TunerPoll

variable (poll : TunerPoll)

def vchannelText : CStr :=
  match poll.vchannel with
  | some state => truncate replySize state.world.vchannelReply
  | none => noneText

def streaminfoText : CStr :=
  match poll.streaminfo with
  | some answer => truncate replySize (streaminfoReply answer.db answer.freq)
  | none => noneText

def debugText : CStr :=
  match poll.debug with
  | some answer => truncate replySize (answer.world.debugReply answer.raw)
  | none => []

end TunerPoll

def physicalOf (status : CStr) : CStr :=
  (tokenStr status "ch=".toList 64).getD noneText

def lockOf (status : CStr) : CStr :=
  (tokenStr status "lock=".toList 16).getD noneText

/-- `%.1f` of what `atof` makes of a token, or `null`. -/
def readingText (debug key : CStr) : CStr :=
  match (tokenStr debug key 32).filter (· ≠ []) with
  | some raw => (Double.strtod raw).text
  | none => "null".toList

/-- The programs in a copy of `streaminfo`. -/
def listedPrograms (streaminfo : CStr) : List StreamProgram :=
  (strtokLines (truncate replySize streaminfo)).filterMap scanProgram

/-- The body of the loop on the lines; `first` is as in the source. -/
def programPieces (first : Bool) : List StreamProgram → List Piece
  | [] => []
  | entry :: entries =>
      .print ((if first then [] else [',']) ++ "\x7b\"program\":".toList ++ decimal entry.program ++
        ",\"major\":".toList ++ decimalUnsigned entry.major ++ ",\"minor\":".toList ++
        decimalUnsigned entry.minor ++ ",\"name\":\"".toList) ::
      .escape entry.name ::
      .print "\"\x7d".toList :: programPieces false entries

/-- What the four calls of `append_tuner_json` leave in its buffers. -/
structure PollTexts where
  status : CStr
  vchannel : CStr
  streaminfo : CStr
  debug : CStr
  deriving DecidableEq, Repr

def TunerPoll.texts (poll : TunerPoll) : PollTexts where
  status := statusOf poll.status
  vchannel := poll.vchannelText
  streaminfo := poll.streaminfoText
  debug := poll.debugText

/-- The writes of `append_tuner_json`. -/
def PollTexts.pieces (texts : PollTexts) (idx : Int32) : List Piece :=
  let status := texts.status
  [.print ("\x7b\"index\":".toList ++ decimalInt idx.toInt ++ ",\"physical_channel\":\"".toList),
    .escape (physicalOf status),
    .print "\",\"vchannel\":\"".toList,
    .escape texts.vchannel,
    .print "\",\"lock\":\"".toList,
    .escape (lockOf status),
    .print ("\",\"signal_strength_pct\":".toList ++ decimalInt (tokenInt status "ss=".toList 0) ++
      ",\"signal_quality_pct\":".toList ++ decimalInt (tokenInt status "snq=".toList 0) ++
      ",\"symbol_quality_pct\":".toList ++ decimalInt (tokenInt status "seq=".toList 0) ++
      ",\"bps\":".toList ++ decimalInt (tokenInt status "bps=".toList 0) ++
      ",\"pps\":".toList ++ decimalInt (tokenInt status "pps=".toList 0) ++ [',']),
    .print ("\"signal_dbm\":".toList ++ readingText texts.debug ssDbmKey ++ [',']),
    .print ("\"snr_db\":".toList ++ readingText texts.debug snrDbKey ++ [',']),
    .print "\"streaminfo\":[".toList] ++
  programPieces true (listedPrograms texts.streaminfo) ++ [.print "]\x7d".toList]

def TunerPoll.pieces (poll : TunerPoll) (idx : Int32) : List Piece :=
  poll.texts.pieces idx

def appendTunerJson (poll : TunerPoll) (idx : Int32) (buffer : TextBuffer) : Checked TextBuffer :=
  writeAll buffer (poll.pieces idx)

/-- The writes of `handle_stats_json`. -/
def statsPieces (idx : Int32) (status : CStr) : List Piece :=
  [.print ("\x7b\"index\":".toList ++ decimalInt idx.toInt ++ ",\"physical_channel\":\"".toList),
    .escape (physicalOf status),
    .print "\",\"lock\":\"".toList,
    .escape (lockOf status),
    .print ("\",\"signal_strength_pct\":".toList ++ decimalInt (tokenInt status "ss=".toList 0) ++
      ",\"signal_quality_pct\":".toList ++ decimalInt (tokenInt status "snq=".toList 0) ++
      ",\"symbol_quality_pct\":".toList ++ decimalInt (tokenInt status "seq=".toList 0) ++
      "\x7d\n".toList)]

/-- The body that `handle_stats_json` sends; `json` is its buffer. -/
def handleStatsJson (answer : Option StatusAnswer) (idx : Int32) (json : List Char) :
    Checked CStr :=
  (writeAll ⟨json, 0⟩ (statsPieces idx (statusOf answer))).bind fun buffer =>
    if buffer.off ≤ buffer.cap then .ok (buffer.cells.take buffer.off)
    else .error (.read buffer.cap)

/-- `PER_TUNER_JSON_MAX`. -/
def perTunerJsonMax : Nat := 4096

/-- `sizeof(json)` in `handle_stats_json`. -/
def statsJsonSize : Nat := 256

/-- `append_tuner_json` stays inside of the room that its callers guarantee,
after each of its writes, and appends a text in JSON. -/
structure AppendsJson (poll : TunerPoll) (idx : Int32) : Prop where
  stays : ∀ (buffer : TextBuffer) (text : CStr), buffer.Holds text →
    text.length + perTunerJsonMax ≤ buffer.cap → ∀ front, front <+: poll.pieces idx →
      Returns (writeAll buffer front) fun next => next.off < buffer.off + perTunerJsonMax
  denotes : ∀ (buffer : TextBuffer) (text : CStr), buffer.Holds text →
    text.length + perTunerJsonMax ≤ buffer.cap →
      Returns (appendTunerJson poll idx buffer) fun next =>
        ∃ object value, next.Holds (text ++ object) ∧ Json.Denotes object value

/-- `handle_stats_json` stays inside of its buffer, and sends a text in JSON. -/
structure SendsJson (answer : Option StatusAnswer) (idx : Int32) : Prop where
  stays : ∀ json : List Char, json.length = statsJsonSize →
    ∀ front, front <+: statsPieces idx (statusOf answer) →
      Returns (writeAll ⟨json, 0⟩ front) fun next => next.off < statsJsonSize
  denotes : ∀ json : List Char, json.length = statsJsonSize →
    Returns (handleStatsJson answer idx json) fun body => ∃ value, Json.Denotes body value

/-- A value that `atof` has read, good if it is finite. -/
def readingField (name debug key : CStr) : Json.Field :=
  ⟨⟨readingText debug key, ReadsFinite debug key⟩, name⟩

def programParts (entries : List StreamProgram) : List Json.Part :=
  entries.map fun entry => ⟨Json.object (programFields entry), Json.Utf8 entry.name⟩

def programsField (name : CStr) (entries : List StreamProgram) : Json.Field :=
  ⟨⟨'[' :: (Json.commas ((programParts entries).map Json.Part.text) ++ [']']),
    ∀ part ∈ programParts entries, part.good⟩, name⟩

def TunerPoll.fields (poll : TunerPoll) (idx : Int32) : List Json.Field :=
  let status := statusOf poll.status
  [.int "index".toList idx.toInt,
    .string "physical_channel".toList (physicalOf status),
    .string "vchannel".toList poll.vchannelText,
    .string "lock".toList (lockOf status),
    .int "signal_strength_pct".toList (tokenInt status "ss=".toList 0),
    .int "signal_quality_pct".toList (tokenInt status "snq=".toList 0),
    .int "symbol_quality_pct".toList (tokenInt status "seq=".toList 0),
    .int "bps".toList (tokenInt status "bps=".toList 0),
    .int "pps".toList (tokenInt status "pps=".toList 0),
    readingField "signal_dbm".toList poll.debugText ssDbmKey,
    readingField "snr_db".toList poll.debugText snrDbKey,
    programsField "streaminfo".toList (listedPrograms poll.streaminfoText)]

def statsFields (idx : Int32) (status : CStr) : List Json.Field :=
  [.int "index".toList idx.toInt,
    .string "physical_channel".toList (physicalOf status),
    .string "lock".toList (lockOf status),
    .int "signal_strength_pct".toList (tokenInt status "ss=".toList 0),
    .int "signal_quality_pct".toList (tokenInt status "snq=".toList 0),
    .int "symbol_quality_pct".toList (tokenInt status "seq=".toList 0)]

theorem programPieces_false (entries : List StreamProgram) :
    (programPieces false entries).flatMap Piece.text =
      ((programParts entries).map Json.Part.text).flatMap fun object => ',' :: object := by
  induction entries with
  | nil => rfl
  | cons entry entries ih =>
      simp only [programPieces, List.flatMap_cons, ih, programParts, List.map_cons, Piece.text,
        Json.object, programFields, List.map_nil, Json.commas, Json.Field.written, Json.Field.nat,
        Json.Field.string, decimalUnsigned, List.append_assoc, List.cons_append, List.nil_append]
      rfl

theorem programPieces_true (entries : List StreamProgram) :
    (programPieces true entries).flatMap Piece.text =
      Json.commas ((programParts entries).map Json.Part.text) := by
  cases entries with
  | nil => rfl
  | cons entry entries =>
      have all := programPieces_false (entry :: entries)
      have first : (programPieces false (entry :: entries)).flatMap Piece.text =
          ',' :: (programPieces true (entry :: entries)).flatMap Piece.text := rfl
      rw [first, programParts, List.map_cons, List.map_cons, List.flatMap_cons,
        List.cons_append] at all
      rw [programParts, List.map_cons, List.map_cons, Json.commas_cons]
      exact (List.cons.inj all).2

set_option maxRecDepth 4000 in
/-- What the writes of `append_tuner_json` give is an object. -/
theorem pieces_text (poll : TunerPoll) (idx : Int32) :
    (poll.pieces idx).flatMap Piece.text = Json.object (poll.fields idx) := by
  simp only [TunerPoll.pieces, PollTexts.pieces, TunerPoll.texts, List.flatMap_append,
    List.flatMap_cons, List.flatMap_nil, programPieces_true, Piece.text, Json.object, TunerPoll.fields, List.map_cons, List.map_nil,
    Json.commas, Json.Field.written, Json.Field.int, Json.Field.string, readingField,
    programsField, List.append_assoc, List.cons_append, List.nil_append]
  rfl

theorem statsPieces_text (idx : Int32) (status : CStr) :
    (statsPieces idx status).flatMap Piece.text =
      Json.object (statsFields idx status) ++ ['\n'] := by
  simp only [statsPieces, List.flatMap_cons, List.flatMap_nil, Piece.text, Json.object,
    statsFields, List.map_cons, List.map_nil, Json.commas, Json.Field.written, Json.Field.int,
    Json.Field.string, List.append_assoc, List.cons_append, List.nil_append]
  rfl

theorem plain_of_isNumeric {byte : Char} (numeric : Double.isNumeric byte = true) :
    Json.isPlain byte = true ∧ byte.toNat < 0x80 := by
  have low := Double.toNat_of_isNumeric numeric
  refine ⟨?_, by omega⟩
  simp only [Double.isNumeric, Bool.or_eq_true, beq_iff_eq] at numeric
  rcases numeric with (digit | rfl) | rfl
  · have notQuote : byte ≠ '"' := by rintro rfl; cases digit
    have notBackslash : byte ≠ '\\' := by rintro rfl; cases digit
    simp only [Char.isDigit, ge_iff_le, Bool.and_eq_true, decide_eq_true_eq] at digit
    have high : 48 ≤ byte.toNat := digit.1
    rw [Json.isPlain, bne_iff_ne.mpr notQuote, bne_iff_ne.mpr notBackslash,
      decide_eq_true (Nat.le_trans (by decide) high)]
    rfl
  · decide
  · decide

theorem verbatim_noneText : Json.Verbatim noneText :=
  Json.verbatim_of_isName rfl

theorem verbatim_word (delivery : DeliverySystem) : Json.Verbatim delivery.word := by
  cases delivery <;> exact Json.verbatim_of_isName rfl

theorem ShownChannel.verbatim {ch : CStr} (shown : ShownChannel ch) : Json.Verbatim ch := by
  rcases shown with rfl | ⟨delivery, freq, rfl⟩
  · exact verbatim_noneText
  · apply Json.verbatim_of_ascii
    intro byte member
    rcases mem_channelText member with word | rfl | digit
    · have all : ∀ byte ∈ delivery.word, Json.isPlain byte = true ∧ byte.toNat < 0x80 := by
        rw [← List.forall_iff_forall_mem]
        cases delivery <;> decide
      exact all byte word
    · decide
    · exact plain_of_isNumeric (Double.isNumeric_of_isDigit digit)

theorem ShownLock.verbatim {lock : CStr} (shown : ShownLock lock) : Json.Verbatim lock := by
  rcases shown with rfl | ⟨delivery, rfl⟩
  · exact verbatim_noneText
  · exact verbatim_word delivery

theorem shownStatus_statusOf (answer : Option StatusAnswer) : ShownStatus (statusOf answer) := by
  cases answer with
  | none => exact ⟨noneText, noneText, _, .inl rfl, .inl rfl, endsToken_space _, rfl⟩
  | some answer => exact (shownStatus_reply answer.printed _ _).truncate

theorem ShownStatus.physicalOf {status : CStr} (shown : ShownStatus status) :
    ShownChannel (physicalOf status) := by
  obtain ⟨ch, token, channel⟩ := shown.tokens.1
  rw [HdhrEmu.physicalOf, token]
  exact channel

theorem ShownStatus.lockOf {status : CStr} (shown : ShownStatus status) :
    ShownLock (lockOf status) := by
  obtain ⟨lock, token, lockShown⟩ := shown.tokens.2
  rw [HdhrEmu.lockOf, token]
  exact lockShown

theorem vchannelText_spec (poll : TunerPoll) :
    Json.Verbatim poll.vchannelText ∧ poll.vchannelText.length ≤ 23 := by
  unfold TunerPoll.vchannelText
  split
  · rename_i state _
    unfold World.vchannelReply
    split
    · have major := length_decimalSigned state.world.tuner.vchMajor
      have minor := length_decimalSigned state.world.tuner.vchMinor
      constructor
      · apply Json.verbatim_of_ascii
        intro byte member
        apply plain_of_isNumeric
        rcases List.mem_append.mp (List.mem_of_mem_take member) with digit | behind
        · exact isNumeric_decimalInt digit
        · rcases List.mem_cons.mp behind with rfl | digit
          · rfl
          · exact isNumeric_decimalInt digit
      · rw [truncate, List.length_take, List.length_append, List.length_cons]
        omega
    · exact ⟨verbatim_noneText, by decide⟩
  · exact ⟨verbatim_noneText, by decide⟩

theorem length_tokenInt (s key : CStr) : (decimalInt (tokenInt s key 0)).length ≤ 11 := by
  apply length_decimalInt
  unfold tokenInt
  split
  · exact ⟨Int.le_bmod (by decide), Int.bmod_lt (by decide)⟩
  · decide

theorem length_readingText (debug key : CStr) : (readingText debug key).length ≤ 312 := by
  unfold readingText
  split
  · exact Double.length_text_le _
  · decide

/-- A finite number is printed as a number, and anything else as a word. -/
theorem settled_double (number : Double) :
    Json.Settled number.text (∃ value, number = .finite value) := by
  rcases number.text_cases with ⟨value, rfl⟩ | word
  · have digit := Double.isDigit_digitChar (Nat.mod_lt (Double.tenths value) (show 0 < 10 by decide))
    have settled := Json.settled_tenths (Double.signText_cases value.negative)
      (Double.tenths value / 10) digit
    exact settled.congr (iff_of_true trivial ⟨value, rfl⟩)
  · refine (Json.settled_unnumbered word).congr (iff_of_false id ?_)
    rintro ⟨value, rfl⟩
    have points : '.' ∈ (Double.finite value).text := by simp [Double.text]
    have none_ : ∀ text ∈ ["nan".toList, "-nan".toList, "inf".toList, "-inf".toList],
        '.' ∉ text := by decide
    exact none_ _ word points

theorem settled_readingText (debug key : CStr) :
    Json.Settled (readingText debug key) (ReadsFinite debug key) := by
  unfold readingText ReadsFinite
  cases found : tokenStr debug key 32 with
  | none => exact Json.settled_null.congr (iff_of_true trivial fun _ member => nomatch member)
  | some raw =>
      by_cases empty : raw = []
      · subst empty
        refine Json.settled_null.congr (iff_of_true trivial fun token member => ?_)
        cases member
        exact Double.finite_strtod (fun _ member => absurd member List.not_mem_nil) (by decide)
      · have kept : (some raw).filter (· ≠ []) = some raw := by simp [empty]
        rw [kept]
        refine (settled_double (Double.strtod raw)).congr ?_
        simp

theorem programParts_good (entries : List StreamProgram) :
    (∀ part ∈ programParts entries, part.good) ↔ ∀ entry ∈ entries, Json.Utf8 entry.name := by
  simp [programParts]

theorem settled_programsField {name : CStr} (is : Json.isName name = true)
    (entries : List StreamProgram) : (programsField name entries).Settled := by
  refine ⟨Json.verbatim_of_isName is, Json.settled_array ?_⟩
  intro part member
  obtain ⟨entry, -, rfl⟩ := List.mem_map.mp member
  exact settled_programObject entry

theorem settled_readingField {name : CStr} (is : Json.isName name = true) (debug key : CStr) :
    (readingField name debug key).Settled :=
  ⟨Json.verbatim_of_isName is, settled_readingText debug key⟩

/-- What decides whether the object of a tuner is in JSON. -/
def TunerPoll.Good (poll : TunerPoll) : Prop :=
  (ReadsFinite poll.debugText ssDbmKey ∧ ReadsFinite poll.debugText snrDbKey) ∧
    ∀ entry ∈ listedPrograms poll.streaminfoText, Json.Utf8 entry.name

theorem settled_fields (poll : TunerPoll) (idx : Int32) :
    Json.Settled (Json.object (poll.fields idx)) poll.Good := by
  have settled : ∀ field ∈ poll.fields idx, field.Settled := by
    intro field member
    simp only [TunerPoll.fields, List.mem_cons, List.not_mem_nil, or_false] at member
    rcases member with rfl | rfl | rfl | rfl | rfl | rfl | rfl | rfl | rfl | rfl | rfl | rfl
    · exact .int rfl _
    · exact .string rfl _
    · exact .string rfl _
    · exact .string rfl _
    · exact .int rfl _
    · exact .int rfl _
    · exact .int rfl _
    · exact .int rfl _
    · exact .int rfl _
    · exact settled_readingField rfl _ _
    · exact settled_readingField rfl _ _
    · exact settled_programsField rfl _
  have shown := shownStatus_statusOf poll.status
  have physical := shown.physicalOf.verbatim.1
  have lock := shown.lockOf.verbatim.1
  have vchannel := (vchannelText_spec poll).1.1
  refine (Json.settled_object (List.cons_ne_nil _ _) settled).congr ?_
  simp only [List.forall_mem_cons, Json.Field.int, Json.Field.string,
    readingField, programsField, programParts_good, TunerPoll.Good, physical, lock, vchannel,
    true_and, and_assoc]
  simp

theorem settled_statsFields (answer : Option StatusAnswer) (idx : Int32) :
    Json.Settled (Json.object (statsFields idx (statusOf answer))) True := by
  have settled : ∀ field ∈ statsFields idx (statusOf answer), field.Settled := by
    intro field member
    simp only [statsFields, List.mem_cons, List.not_mem_nil, or_false] at member
    rcases member with rfl | rfl | rfl | rfl | rfl | rfl
    · exact .int rfl _
    · exact .string rfl _
    · exact .string rfl _
    · exact .int rfl _
    · exact .int rfl _
    · exact .int rfl _
  have shown := shownStatus_statusOf answer
  have physical := shown.physicalOf.verbatim.1
  have lock := shown.lockOf.verbatim.1
  refine (Json.settled_object (List.cons_ne_nil _ _) settled).congr (iff_of_true ?_ trivial)
  simp [Json.Field.int, Json.Field.string, physical, lock]

/-- The programs that are listed are those of the channels. -/
theorem listedPrograms_spec (poll : TunerPoll) :
    ((∀ answer ∈ poll.streaminfo,
        Json.Utf8 (truncate replySize (streaminfoReply answer.db answer.freq))) ↔
      ∀ entry ∈ listedPrograms poll.streaminfoText, Json.Utf8 entry.name) ∧
    (Json.commas ((programParts (listedPrograms poll.streaminfoText)).map Json.Part.text)).length ≤
      6 * replySize := by
  have listed : ∀ entries : List StreamProgram,
      (Json.commas ((programParts entries).map Json.Part.text)).length ≤
        (entries.map fun entry => (Json.object (programFields entry)).length + 1).sum := by
    intro entries
    have length := Json.length_commas ((programParts entries).map Json.Part.text)
    rw [programParts, List.map_map, List.map_map] at length
    rw [programParts, List.map_map]
    exact length
  unfold TunerPoll.streaminfoText
  cases poll.streaminfo with
  | none =>
      have nothing : listedPrograms noneText = [] := by decide
      dsimp only
      rw [nothing]
      exact ⟨iff_of_true (fun _ member => nomatch member) fun _ member => absurd member
        List.not_mem_nil, by decide⟩
  | some answer =>
      obtain ⟨utf8, sum⟩ := webPrograms_spec answer.stored answer.freq
      have same : listedPrograms (truncate replySize (streaminfoReply answer.db answer.freq)) =
          webPrograms answer.db answer.freq := rfl
      dsimp only
      rw [same]
      refine ⟨?_, Nat.le_trans (listed _) sum⟩
      simpa using utf8

/-- The object of a tuner fits with room to spare. -/
theorem length_fields (poll : TunerPoll) (idx : Int32) :
    (Json.object (poll.fields idx)).length + 6 < perTunerJsonMax := by
  have shown := shownStatus_statusOf poll.status
  have index := length_decimalInt ⟨idx.le_toInt, idx.toInt_lt⟩
  have physical := shown.physicalOf.length_le
  have lock := shown.lockOf.length_le
  have vchannel := (vchannelText_spec poll).2
  have programs := (listedPrograms_spec poll).2
  have strength := length_tokenInt (statusOf poll.status) "ss=".toList
  have quality := length_tokenInt (statusOf poll.status) "snq=".toList
  have symbols := length_tokenInt (statusOf poll.status) "seq=".toList
  have bps := length_tokenInt (statusOf poll.status) "bps=".toList
  have pps := length_tokenInt (statusOf poll.status) "pps=".toList
  have signal := length_readingText poll.debugText ssDbmKey
  have snr := length_readingText poll.debugText snrDbKey
  have keys : "index".toList.length = 5 ∧ "physical_channel".toList.length = 16 ∧
      "vchannel".toList.length = 8 ∧ "lock".toList.length = 4 ∧
      "signal_strength_pct".toList.length = 19 ∧ "signal_quality_pct".toList.length = 18 ∧
      "symbol_quality_pct".toList.length = 18 ∧ "bps".toList.length = 3 ∧
      "pps".toList.length = 3 ∧ "signal_dbm".toList.length = 10 ∧ "snr_db".toList.length = 6 ∧
      "streaminfo".toList.length = 10 := by decide
  obtain ⟨key1, key2, key3, key4, key5, key6, key7, key8, key9, key10, key11, key12⟩ := keys
  have bound := Json.length_object (poll.fields idx)
  refine Nat.lt_of_le_of_lt (Nat.add_le_add_right bound 6) ?_
  simp only [TunerPoll.fields, Json.Field.int, Json.Field.string, readingField, programsField,
    List.map_cons, List.map_nil, List.sum_cons, List.sum_nil, List.length_cons,
    List.length_append, List.length_nil, Json.escapeText_plain shown.physicalOf.verbatim.2,
    Json.escapeText_plain shown.lockOf.verbatim.2,
    Json.escapeText_plain (vchannelText_spec poll).1.2,
    key1, key2, key3, key4, key5, key6, key7, key8, key9, key10, key11, key12, perTunerJsonMax]
  rw [replySize] at programs
  omega

theorem length_statsFields (answer : Option StatusAnswer) (idx : Int32) :
    (Json.object (statsFields idx (statusOf answer))).length + 7 < statsJsonSize := by
  have shown := shownStatus_statusOf answer
  have index := length_decimalInt ⟨idx.le_toInt, idx.toInt_lt⟩
  have physical := shown.physicalOf.length_le
  have lock := shown.lockOf.length_le
  have strength := length_tokenInt (statusOf answer) "ss=".toList
  have quality := length_tokenInt (statusOf answer) "snq=".toList
  have symbols := length_tokenInt (statusOf answer) "seq=".toList
  have keys : "index".toList.length = 5 ∧ "physical_channel".toList.length = 16 ∧
      "lock".toList.length = 4 ∧ "signal_strength_pct".toList.length = 19 ∧
      "signal_quality_pct".toList.length = 18 ∧ "symbol_quality_pct".toList.length = 18 := by
    decide
  obtain ⟨key1, key2, key3, key4, key5, key6⟩ := keys
  have bound := Json.length_object (statsFields idx (statusOf answer))
  refine Nat.lt_of_le_of_lt (Nat.add_le_add_right bound 7) ?_
  simp only [statsFields, Json.Field.int, Json.Field.string, List.map_cons, List.map_nil,
    List.sum_cons, List.sum_nil, List.length_cons, List.length_append, List.length_nil,
    Json.escapeText_plain shown.physicalOf.verbatim.2,
    Json.escapeText_plain shown.lockOf.verbatim.2, key1, key2, key3, key4, key5, key6,
    statsJsonSize]
  omega

theorem room_for_pieces (poll : TunerPoll) (idx : Int32) {buffer : TextBuffer} {text : CStr}
    (headroom : text.length + perTunerJsonMax ≤ buffer.cap) :
    text.length + ((poll.pieces idx).flatMap Piece.text).length + 6 ≤ buffer.cap := by
  have length := length_fields poll idx
  rw [pieces_text]
  omega

/-- The writes stay inside of the room for a tuner whatever the replies are. -/
theorem off_pieces (poll : TunerPoll) (idx : Int32) {buffer : TextBuffer} {text : CStr}
    (holds : buffer.Holds text) (headroom : text.length + perTunerJsonMax ≤ buffer.cap)
    {front : List Piece} (begun : front <+: poll.pieces idx) :
    Returns (writeAll buffer front) fun next => next.off < buffer.off + perTunerJsonMax := by
  have length := length_fields poll idx
  obtain ⟨next, wrote, bound⟩ := off_writeAll holds begun (room_for_pieces poll idx headroom)
  rw [pieces_text] at bound
  exact ⟨next, wrote, by omega⟩

theorem appendsJson_iff (poll : TunerPoll) (idx : Int32) :
    AppendsJson poll idx ↔ poll.Good := by
  have document := (settled_fields poll idx).denotes_iff (show Json.skip [] = [] from rfl)
  rw [List.append_nil] at document
  constructor
  · intro appends
    obtain ⟨cells, size⟩ : ∃ cells : List Char, cells.length = perTunerJsonMax :=
      ⟨_, List.length_replicate (a := ' ')⟩
    have start : (⟨cells, 0⟩ : TextBuffer).Holds [] := by
      apply TextBuffer.holds_nil
      · rw [size]
        decide
      · rw [size]
        decide
    have headroom : ([] : CStr).length + perTunerJsonMax ≤ (⟨cells, 0⟩ : TextBuffer).cap := by
      rw [TextBuffer.cap, size]
      exact Nat.le_of_eq (Nat.zero_add _)
    obtain ⟨next, wrote, object, value, holds, denotes⟩ := appends.denotes _ _ start headroom
    obtain ⟨_, wrote', holds', -⟩ := holds_writeAll start (room_for_pieces poll idx headroom)
    cases wrote.symm.trans wrote'
    have same := holds.unique holds'
    rw [List.nil_append, List.nil_append, pieces_text] at same
    rw [same] at denotes
    exact document.mp ⟨value, denotes⟩
  · intro good
    constructor
    · exact fun buffer text holds headroom front begun => off_pieces poll idx holds headroom begun
    · intro buffer text holds headroom
      obtain ⟨next, wrote, holdsNext, -⟩ :=
        holds_writeAll holds (room_for_pieces poll idx headroom)
      obtain ⟨value, denotes⟩ := document.mpr good
      rw [pieces_text] at holdsNext
      exact ⟨next, wrote, _, value, holdsNext, denotes⟩

theorem sendsJson (answer : Option StatusAnswer) (idx : Int32) : SendsJson answer idx := by
  have length := length_statsFields answer idx
  have room {json : List Char} (size : json.length = statsJsonSize) :
      ([] : CStr).length + ((statsPieces idx (statusOf answer)).flatMap Piece.text).length + 6 ≤
        (⟨json, 0⟩ : TextBuffer).cap := by
    rw [TextBuffer.cap, size, statsPieces_text, List.length_append, List.length_nil,
      List.length_singleton]
    omega
  have start {json : List Char} (size : json.length = statsJsonSize) :
      (⟨json, 0⟩ : TextBuffer).Holds [] := by
    apply TextBuffer.holds_nil
    · rw [size]
      decide
    · rw [size]
      decide
  constructor
  · intro json size front begun
    obtain ⟨next, wrote, bound⟩ := off_writeAll (start size) begun (room size)
    rw [statsPieces_text, List.length_append, List.length_singleton, Nat.zero_add] at bound
    exact ⟨next, wrote, by omega⟩
  · intro json size
    obtain ⟨next, wrote, holds, -⟩ := holds_writeAll (start size) (room size)
    rw [List.nil_append, statsPieces_text] at holds
    obtain ⟨value, denotes⟩ := ((settled_statsFields answer idx).denotes_iff
      (show Json.skip ['\n'] = [] from rfl)).mpr trivial
    have inside : next.off ≤ next.cap := by
      rw [holds.off]
      exact Nat.le_of_lt holds.room
    refine ⟨next.cells.take next.off, ?_, value, ?_⟩
    · rw [handleStatsJson, wrote]
      exact if_pos inside
    · rw [holds.off, holds.text]
      exact denotes

/-- Numbers in the target of a tuner are finite, and the reply with its
programs is in UTF-8. -/
structure TunerPoll.Safe (poll : TunerPoll) : Prop where
  target : ∀ answer ∈ poll.debug, ReadsFinite answer.world.tuner.target ssDbmKey ∧
    ReadsFinite answer.world.tuner.target snrDbKey
  streaminfo : ∀ answer ∈ poll.streaminfo,
    Json.Utf8 (truncate replySize (streaminfoReply answer.db answer.freq))

theorem good_iff_safe (poll : TunerPoll) : poll.Good ↔ poll.Safe := by
  have programs := (listedPrograms_spec poll).1
  have target : (ReadsFinite poll.debugText ssDbmKey ∧ ReadsFinite poll.debugText snrDbKey) ↔
      ∀ answer ∈ poll.debug, ReadsFinite answer.world.tuner.target ssDbmKey ∧
        ReadsFinite answer.world.tuner.target snrDbKey := by
    unfold TunerPoll.debugText
    cases poll.debug with
    | none =>
        refine iff_of_true ?_ fun _ member => nomatch member
        exact ⟨numbersOnly_nil.readsFinite valueKey_ssDbm, numbersOnly_nil.readsFinite valueKey_snrDb⟩
    | some answer =>
        have printed := answer.printed
        dsimp only
        rw [readsFinite_debugReply printed answer.raw valueKey_ssDbm,
          readsFinite_debugReply printed answer.raw valueKey_snrDb]
        simp
  rw [TunerPoll.Good, target, ← programs]
  exact ⟨fun good => ⟨good.1, good.2⟩, fun safe => ⟨safe.target, safe.streaminfo⟩⟩

/-- Both handlers stay inside of their buffers and write JSON if and only if
the numbers in the target are finite and the programs are in UTF-8. -/
theorem web_status_json_iff (poll : TunerPoll) (answer : Option StatusAnswer) (idx : Int32) :
    (AppendsJson poll idx ∧ SendsJson answer idx) ↔ poll.Safe := by
  rw [appendsJson_iff, good_iff_safe]
  exact and_iff_left (sendsJson answer idx)

/-- A selected channel, and a `target` SET that is accepted; the thread of the
push has not run yet. -/
def nanTarget : Schedule :=
  .arrive (.set (.vchannelSet ⟨2, 1⟩)) :: steps 0 9 ++
    .arrive (.set (.targetSet "ss_dbm=nan:5".toList)) :: steps 2 6

/-- A target with a key in it puts `nan` where a number is to be. -/
theorem nan_target_not_json :
    ∃ answer : DebugAnswer, answer.world.tuner.target = "ss_dbm=nan:5".toList ∧
      ¬ (AppendsJson ⟨none, none, none, some answer⟩ 0 ∧ SendsJson none 0) := by
  obtain ⟨config, reachable, target⟩ := machine.reachable_of_run Guard.all (start oneStation)
    nanTarget (fun config => config.shared.tuner.target = "ss_dbm=nan:5".toList)
    (by decide +kernel)
  refine ⟨⟨⟨config.shared, oneStation, config, reachable, rfl⟩, fun _ => ⟨none, none⟩⟩, target, ?_⟩
  rintro ⟨appends, -⟩
  have finite := ((good_iff_safe _).mp ((appendsJson_iff _ _).mp appends)).target _ rfl
  have token : tokenStr "ss_dbm=nan:5".toList ssDbmKey 32 = some "nan:5".toList := by decide
  obtain ⟨value, read⟩ := finite.1 "nan:5".toList (target ▸ token)
  have nan : Double.strtod "nan:5".toList = .nan false := rfl
  rw [nan] at read
  cases read

end HdhrEmu
