import HdhrEmu.Channel
import HdhrEmu.Lib.Scanf
import HdhrEmu.Psip

/-!
# The channel cache

The database is saved as a text with one channel a line, the numbers first and
the name last.  It is loaded with a format that ends in a blank: the blank
skips what separates the name from the numbers, and then the blanks that the
name itself begins with.
-/

namespace HdhrEmu

open CString

/-- The value of the enumerator. -/
def DeliverySystem.number : DeliverySystem → Nat
  | .atscVsb => 0
  | .qam => 1

/-- The enumerator of a number.  The program keeps the number itself, and
compares it with the one for QAM only; no save writes another than 0 and 1. -/
def deliveryOfNumber (number : Int) : DeliverySystem :=
  if number = 1 then .qam else .atscVsb

/-- What `dvb_channel_db_save` writes for a channel, without the newline. -/
def cacheRow (ch : DvbChannel) : CStr :=
  decimalInt ch.major ++ ' ' :: (decimalInt ch.minor ++ ' ' :: (decimalInt ch.rfChannel ++
    ' ' :: (decimalInt ch.delivery.number ++ ' ' :: (decimal ch.frequencyHz.toNat ++
    ' ' :: (decimal ch.channelTsid.toNat ++ ' ' :: (decimal ch.programNumber.toNat ++
    ' ' :: (decimal ch.pmtPid.toNat ++ ' ' :: (decimal ch.pcrPid.toNat ++
    ' ' :: (decimal ch.videoPid.toNat ++ ' ' :: (decimal ch.videoStreamType.toNat ++
    ' ' :: (decimal ch.audioPid.toNat ++ ' ' :: (decimal ch.audioStreamType.toNat ++
    ' ' :: ch.shortName))))))))))))

def cacheHeader : List CStr :=
  ["# hdhr-emu channel cache -- generated, do not edit by hand.".toList,
    ("# major minor rf_channel delivery frequency_hz channel_tsid " ++
      "program_number pmt_pid pcr_pid video_pid video_stream_type " ++
      "audio_pid audio_stream_type short_name").toList]

/-- `dvb_channel_db_save`: the text of the file. -/
def dvbChannelDbSave (db : ChannelDb) : CStr :=
  (cacheHeader ++ db.channels.map cacheRow).flatMap fun line => line ++ ['\n']

/-- The name behind the numbers: blanks in front and line ends behind it go. -/
def cacheName (rest : CStr) : CStr :=
  let name := (scanBlank rest).dropWhile (· = ' ')
  ((name.reverse.dropWhile fun character => character = '\n' || character = '\r').reverse).take 15

/-- The `sscanf` of `dvb_channel_db_load`, and the name. -/
def scanCacheRow (line : CStr) : Option DvbChannel := do
  let (major, line) ← scanInt line
  let (minor, line) ← scanInt line
  let (rfChannel, line) ← scanInt line
  let (delivery, line) ← scanInt line
  let (frequencyHz, line) ← scanUnsigned 32 line
  let (channelTsid, line) ← scanUnsigned 16 line
  let (programNumber, line) ← scanUnsigned 16 line
  let (pmtPid, line) ← scanUnsigned 16 line
  let (pcrPid, line) ← scanUnsigned 16 line
  let (videoPid, line) ← scanUnsigned 16 line
  let (videoStreamType, line) ← scanUnsigned 8 line
  let (audioPid, line) ← scanUnsigned 16 line
  let (audioStreamType, line) ← scanUnsigned 8 line
  some
    { major, minor, rfChannel
      shortName := cacheName line
      delivery := deliveryOfNumber delivery
      frequencyHz := UInt32.ofNat frequencyHz
      channelTsid := UInt16.ofNat channelTsid
      programNumber := UInt16.ofNat programNumber
      pmtPid := UInt16.ofNat pmtPid
      pcrPid := UInt16.ofNat pcrPid
      videoPid := UInt16.ofNat videoPid
      videoStreamType := UInt8.ofNat videoStreamType
      audioPid := UInt16.ofNat audioPid
      audioStreamType := UInt8.ofNat audioStreamType }

/-- The loop on the lines of the file, with the number of channels so far. -/
def loadCacheLines (db : ChannelDb) (n : Nat) : List CStr → ChannelDb × Int
  | [] => (db, n)
  | line :: lines =>
      if line.head?.all fun character => character = '#' || character = '\n' then
        loadCacheLines db n lines
      else
        match scanCacheRow line with
        | none => (db, -1)
        | some ch => loadCacheLines (db.add ch) (if db.accepts ch then n + 1 else n) lines

/-- The lines of a cache file as C strings: a terminator in a line ends it. -/
def cacheLines (file : CStr) : List CStr :=
  (fgetsLines 254 file).map fun line => line.takeWhile (· ≠ '\x00')

/-- `dvb_channel_db_load`, and what it returns. -/
def dvbChannelDbLoad (file : CStr) (db : ChannelDb) : ChannelDb × Int :=
  loadCacheLines db 0 (cacheLines file)

/-- The fields of a channel that are C integers, and its name in its array. -/
structure CacheChannel (ch : DvbChannel) : Prop where
  major : -2 ^ 31 ≤ ch.major ∧ ch.major < 2 ^ 31
  minor : -2 ^ 31 ≤ ch.minor ∧ ch.minor < 2 ^ 31
  rfChannel : -2 ^ 31 ≤ ch.rfChannel ∧ ch.rfChannel < 2 ^ 31
  short : ch.shortName.length ≤ 15
  printable : ∀ character ∈ ch.shortName, ' ' ≤ character ∧ character ≤ '~'

/-- A channel as it comes back. -/
def DvbChannel.blanksDropped (ch : DvbChannel) : DvbChannel :=
  { ch with shortName := ch.shortName.dropWhile (· = ' ') }

theorem isSpace_printable {character : Char} (low : ' ' ≤ character) :
    isSpace character = decide (character = ' ') := by
  by_cases blank : character = ' '
  · subst blank
    rfl
  · have code : ' '.toNat ≤ character.toNat := low
    have notSpace : isSpace character = false := by
      simp only [isSpace, List.contains_eq_mem, decide_eq_false_iff_not, List.mem_cons,
        List.not_mem_nil, or_false, not_or]
      refine ⟨blank, ?_, ?_, ?_, ?_, ?_⟩ <;> rintro rfl <;> revert code <;> decide
    rw [notSpace, decide_eq_false blank]

theorem dropWhile_isSpace_eq {name : CStr} (printable : ∀ character ∈ name, ' ' ≤ character)
    (rest : CStr) :
    (name ++ '\n' :: rest).dropWhile isSpace =
      if name.dropWhile (· = ' ') = [] then rest.dropWhile isSpace
      else name.dropWhile (· = ' ') ++ '\n' :: rest := by
  induction name with
  | nil => rfl
  | cons character name ih =>
      rw [List.forall_mem_cons] at printable
      have space := isSpace_printable printable.1
      by_cases blank : character = ' '
      · rw [List.cons_append, List.dropWhile_cons_of_pos (by rw [space]; exact decide_eq_true blank),
          List.dropWhile_cons_of_pos (by exact decide_eq_true blank), ih printable.2]
      · rw [List.cons_append, List.dropWhile_cons_of_neg (by rw [space]; simpa using blank),
          List.dropWhile_cons_of_neg (by simpa using blank), if_neg (List.cons_ne_nil _ _),
          List.cons_append]

/-- A name is found behind the numbers, without the blanks it begins with. -/
theorem cacheName_row {name : CStr} (short : name.length ≤ 15)
    (printable : ∀ character ∈ name, ' ' ≤ character ∧ character ≤ '~') :
    cacheName (' ' :: (name ++ ['\n'])) = name.dropWhile (· = ' ') := by
  have blank : scanBlank (' ' :: (name ++ ['\n'])) = (name ++ ['\n']).dropWhile isSpace := rfl
  unfold cacheName
  rw [blank, dropWhile_isSpace_eq fun character member => (printable character member).1]
  by_cases nothing : name.dropWhile (· = ' ') = []
  · rw [if_pos nothing, nothing]
    rfl
  · obtain ⟨first, rest, front⟩ := List.exists_cons_of_ne_nil nothing
    have suffix_ : name.dropWhile (· = ' ') <:+ name := List.dropWhile_suffix _
    have firstNotBlank : first ≠ ' ' := by
      have head := List.head?_dropWhile_not (fun character : Char => decide (character = ' ')) name
      rw [front] at head
      simpa using head
    have lineEnd (character : Char) (member : character ∈ first :: rest) :
        (decide (character = '\n') || decide (character = '\r')) = false := by
      rw [← front] at member
      have low := (printable character (suffix_.subset member)).1
      have code : ' '.toNat ≤ character.toNat := low
      simp only [Bool.or_eq_false_iff, decide_eq_false_iff_not]
      constructor <;> rintro rfl <;> revert code <;> decide
    have length : (first :: rest).length ≤ 15 := by
      rw [← front]
      exact Nat.le_trans suffix_.length_le short
    rw [if_neg nothing, front]
    dsimp only
    rw [List.cons_append, List.dropWhile_cons_of_neg (by simpa using firstNotBlank),
      ← List.cons_append, List.reverse_append]
    have newline : ['\n'].reverse = ['\n'] := rfl
    rw [newline, List.singleton_append, List.dropWhile_cons_of_pos (by decide)]
    have kept : (first :: rest).reverse.dropWhile
        (fun character => decide (character = '\n') || decide (character = '\r')) =
          (first :: rest).reverse := by
      cases last : (first :: rest).reverse with
      | nil => rfl
      | cons character others =>
          rw [List.dropWhile_cons_of_neg]
          rw [lineEnd character]
          · decide
          · rw [← List.mem_reverse, last]
            exact List.mem_cons_self
    rw [kept, List.reverse_reverse, List.take_of_length_le length]

theorem endsNumeral_blank (rest : CStr) : EndsNumeral (' ' :: rest) :=
  endsNumeral_cons (by decide) rest

theorem scanInt_blank {i : Int} (range : -2 ^ 31 ≤ i ∧ i < 2 ^ 31) (rest : CStr) :
    scanInt (decimalInt i ++ ' ' :: rest) = some (i, ' ' :: rest) :=
  scanInt_decimalInt range.1 range.2 (endsNumeral_blank rest)

theorem scanUnsigned_blank {width n : Nat} (wide : width ≤ 64) (small : n < 2 ^ width)
    (rest : CStr) : scanUnsigned width (decimal n ++ ' ' :: rest) = some (n, ' ' :: rest) :=
  scanUnsigned_decimal wide small (endsNumeral_blank rest)

theorem deliveryOfNumber_number (delivery : DeliverySystem) :
    deliveryOfNumber delivery.number = delivery := by
  cases delivery <;> rfl

theorem number_range (delivery : DeliverySystem) :
    -2 ^ 31 ≤ (delivery.number : Int) ∧ (delivery.number : Int) < 2 ^ 31 := by
  cases delivery <;> decide

theorem scanned_bind {α β : Type} {first : Option α} {next : α → Option β} {a : α} {b : β}
    (scanned : first = some a) (rest : next a = some b) : (first >>= next) = some b := by
  rw [scanned]
  exact rest

/-- A row reads back as its channel, but for the blanks its name begins with. -/
theorem scanCacheRow_row {ch : DvbChannel} (fits : CacheChannel ch) :
    scanCacheRow (cacheRow ch ++ ['\n']) = some ch.blanksDropped := by
  have sixteen (v : UInt16) (rest : CStr) :
      scanUnsigned 16 (' ' :: (decimal v.toNat ++ ' ' :: rest)) = some (v.toNat, ' ' :: rest) :=
    (scanUnsigned_space _ _).trans (scanUnsigned_blank (by decide) v.toNat_lt rest)
  have eight (v : UInt8) (rest : CStr) :
      scanUnsigned 8 (' ' :: (decimal v.toNat ++ ' ' :: rest)) = some (v.toNat, ' ' :: rest) :=
    (scanUnsigned_space _ _).trans (scanUnsigned_blank (by decide) v.toNat_lt rest)
  have thirtyTwo (v : UInt32) (rest : CStr) :
      scanUnsigned 32 (' ' :: (decimal v.toNat ++ ' ' :: rest)) = some (v.toNat, ' ' :: rest) :=
    (scanUnsigned_space _ _).trans (scanUnsigned_blank (by decide) v.toNat_lt rest)
  simp only [cacheRow, List.append_assoc, List.cons_append]
  -- One number after another, in the order of the format.
  apply scanned_bind (scanInt_blank fits.major _)
  apply scanned_bind ((scanInt_space _).trans (scanInt_blank fits.minor _))
  apply scanned_bind ((scanInt_space _).trans (scanInt_blank fits.rfChannel _))
  apply scanned_bind ((scanInt_space _).trans (scanInt_blank (number_range _) _))
  apply scanned_bind (thirtyTwo ch.frequencyHz _)
  apply scanned_bind (sixteen ch.channelTsid _)
  apply scanned_bind (sixteen ch.programNumber _)
  apply scanned_bind (sixteen ch.pmtPid _)
  apply scanned_bind (sixteen ch.pcrPid _)
  apply scanned_bind (sixteen ch.videoPid _)
  apply scanned_bind (eight ch.videoStreamType _)
  apply scanned_bind (sixteen ch.audioPid _)
  apply scanned_bind (eight ch.audioStreamType _)
  simp only [cacheName_row fits.short fits.printable, deliveryOfNumber_number,
    UInt16.ofNat_toNat, UInt32.ofNat_toNat, UInt8.ofNat_toNat]
  rfl

theorem length_decimal {n k : Nat} (small : n < 10 ^ k) (positive : 0 < k) :
    (decimal n).length ≤ k :=
  (Nat.length_toDigits_le_iff (by decide) positive).mpr small

theorem length_decimalInt {i : Int} (range : -2 ^ 31 ≤ i ∧ i < 2 ^ 31) :
    (decimalInt i).length ≤ 11 := by
  have digits := length_decimal (n := i.natAbs) (k := 10) (by omega) (by decide)
  unfold decimalInt
  split
  · rw [List.length_cons]
    omega
  · omega

theorem length_cacheRow {ch : DvbChannel} (fits : CacheChannel ch) :
    (cacheRow ch).length ≤ 254 := by
  have sixteen (v : UInt16) : (decimal v.toNat).length ≤ 5 :=
    length_decimal (Nat.lt_trans v.toNat_lt (by decide)) (by decide)
  have eight (v : UInt8) : (decimal v.toNat).length ≤ 3 :=
    length_decimal (Nat.lt_trans v.toNat_lt (by decide)) (by decide)
  have frequency : (decimal ch.frequencyHz.toNat).length ≤ 10 :=
    length_decimal (Nat.lt_trans ch.frequencyHz.toNat_lt (by decide)) (by decide)
  have major := length_decimalInt fits.major
  have minor := length_decimalInt fits.minor
  have rfChannel := length_decimalInt fits.rfChannel
  have delivery := length_decimalInt (number_range ch.delivery)
  have tsid := sixteen ch.channelTsid
  have program := sixteen ch.programNumber
  have pmt := sixteen ch.pmtPid
  have pcr := sixteen ch.pcrPid
  have video := sixteen ch.videoPid
  have audio := sixteen ch.audioPid
  have videoType := eight ch.videoStreamType
  have audioType := eight ch.audioStreamType
  have name := fits.short
  simp only [cacheRow, List.length_append, List.length_cons]
  omega

/-- Printable names have no line end and no terminator in them. -/
theorem not_mem_of_printable {name : CStr} {character : Char}
    (printable : ∀ character ∈ name, ' ' ≤ character ∧ character ≤ '~')
    (low : character < ' ') : character ∉ name := by
  intro member
  exact absurd (printable character member).1 (Char.not_le.mpr low)

/-- A row has no line end and no terminator in it. -/
theorem not_mem_cacheRow {ch : DvbChannel} (fits : CacheChannel ch) {character : Char}
    (low : character < ' ') : character ∉ cacheRow ch := by
  have notDigit : character.isDigit = false := by
    cases digit : character.isDigit with
    | false => rfl
    | true =>
        simp only [Char.isDigit, Bool.and_eq_true, decide_eq_true_eq] at digit
        have high : ' ' ≤ character := Char.le_trans (by decide) digit.1
        exact absurd high (Char.not_le.mpr low)
  have notBlank : character ≠ ' ' := by
    rintro rfl
    exact absurd low (by decide)
  have notSign : character ≠ '-' := by
    rintro rfl
    exact absurd low (by decide)
  simp only [cacheRow, List.mem_append, List.mem_cons, not_mem_decimal notDigit,
    not_mem_decimalInt notDigit notSign, not_mem_of_printable fits.printable low, notBlank,
    or_self, not_false_eq_true]

/-- A row is no comment and not empty. -/
theorem head?_cacheRow (ch : DvbChannel) :
    ((cacheRow ch ++ ['\n']).head?.all fun character => character = '#' || character = '\n') =
      false := by
  have front (i : Int) (rest : CStr) :
      ((decimalInt i ++ rest).head?.all fun character => character = '#' || character = '\n') =
        false := by
    have digit (n : Nat) (rest : CStr) :
        ((decimal n ++ rest).head?.all fun character => character = '#' || character = '\n') =
          false := by
      obtain ⟨first, more, digits⟩ := List.exists_cons_of_ne_nil (decimal_ne_nil n)
      have firstDigit : first.isDigit = true :=
        isDigit_decimal (n := n) (by rw [digits]; exact List.mem_cons_self)
      rw [digits, List.cons_append, List.head?_cons, Option.all_some]
      simp only [Bool.or_eq_false_iff, decide_eq_false_iff_not]
      constructor <;> rintro rfl <;> exact absurd firstDigit (by decide)
    unfold decimalInt
    split
    · rfl
    · exact digit _ rest
  rw [cacheRow, List.append_assoc]
  exact front _ _

set_option maxRecDepth 4000 in
theorem cacheHeader_fits :
    ∀ line ∈ cacheHeader, line.head? = some '#' ∧ '\x00' ∉ line ∧
      '\n' ∉ line ∧ line.length ≤ 254 := by
  decide

/-- A line of a cache file has no terminator, and a line end at its end only. -/
theorem of_mem_cacheLines {file line : CStr} (member : line ∈ cacheLines file) :
    '\n' ∉ line.dropLast ∧ '\x00' ∉ line := by
  obtain ⟨whole, read, rfl⟩ := List.mem_map.mp member
  constructor
  · intro inside
    apply (of_mem_fgetsLines read).2
    obtain ⟨behind, parts⟩ := List.takeWhile_prefix (l := whole) fun character =>
      decide (character ≠ '\x00')
    rw [← parts]
    cases behind with
    | nil => rwa [List.append_nil]
    | cons first rest =>
        rw [List.dropLast_append_of_ne_nil (List.cons_ne_nil _ _)]
        exact List.mem_append_left _ (List.dropLast_subset _ inside)
  · intro inside
    have kept := List.mem_takeWhile_imp inside
    rw [decide_eq_true_eq] at kept
    exact kept rfl

/-- The lines of a saved database are its header and its rows. -/
theorem cacheLines_save {db : ChannelDb} (fit : ∀ ch ∈ db.channels, CacheChannel ch) :
    cacheLines (dvbChannelDbSave db) =
      (cacheHeader ++ db.channels.map cacheRow).map fun line => line ++ ['\n'] := by
  have lines : ∀ line ∈ cacheHeader ++ db.channels.map cacheRow,
      '\x00' ∉ line ∧ '\n' ∉ line ∧ line.length ≤ 254 := by
    intro line member
    obtain header | row := List.mem_append.mp member
    · exact (cacheHeader_fits line header).2
    · obtain ⟨ch, inside, rfl⟩ := List.mem_map.mp row
      have fits := fit ch inside
      exact ⟨not_mem_cacheRow fits (by decide), not_mem_cacheRow fits (by decide),
        length_cacheRow fits⟩
  rw [cacheLines, dvbChannelDbSave, fgetsLines_lines fun line member => (lines line member).2,
    List.map_map]
  apply List.map_congr_left
  intro line member
  apply takeWhile_text
  rw [List.mem_append, not_or]
  exact ⟨(lines line member).1, by decide⟩

theorem blanksDropped_key (ch : DvbChannel) : ch.blanksDropped.key = ch.key :=
  rfl

theorem ChannelDb.eq_of_channels {first second : ChannelDb}
    (same : first.channels = second.channels) : first = second := by
  cases first
  cases second
  cases same
  rfl

/-- New keys are appended while there is room. -/
theorem ChannelDb.channels_add {db : ChannelDb} {channel : DvbChannel}
    (new : channel.key ∉ db.channels.map DvbChannel.key)
    (room : db.channels.length < dvbChannelMax) :
    (db.add channel).channels = db.channels ++ [channel] ∧ db.accepts channel = true := by
  constructor
  · rw [add, dif_neg new, dif_pos room]
  · simp [accepts, room]

/-- Loading rows appends their channels. -/
theorem loadCacheLines_rows {channels : List DvbChannel} (db : ChannelDb) (n : Nat)
    (fit : ∀ ch ∈ channels, CacheChannel ch)
    (nodup : ((db.channels ++ channels).map DvbChannel.key).Nodup)
    (room : (db.channels ++ channels).length ≤ dvbChannelMax) :
    ∃ loaded : ChannelDb, loaded.channels = db.channels ++ channels.map DvbChannel.blanksDropped ∧
      loadCacheLines db n (channels.map fun ch => cacheRow ch ++ ['\n']) =
        (loaded, (n : Int) + channels.length) := by
  induction channels generalizing db n with
  | nil => exact ⟨db, (List.append_nil _).symm, by simp [loadCacheLines]⟩
  | cons ch channels ih =>
      rw [List.forall_mem_cons] at fit
      rw [List.length_append, List.length_cons] at room
      have new : ch.blanksDropped.key ∉ db.channels.map DvbChannel.key := by
        rw [blanksDropped_key]
        rw [List.map_append, List.map_cons] at nodup
        exact fun member => (List.disjoint_of_nodup_append nodup member) List.mem_cons_self
      obtain ⟨added, accepted⟩ := ChannelDb.channels_add new (by omega)
      have keys : ((db.add ch.blanksDropped).channels ++ channels).map DvbChannel.key =
          (db.channels ++ ch :: channels).map DvbChannel.key := by
        rw [added]
        simp [blanksDropped_key]
      obtain ⟨loaded, result, run⟩ := ih (db.add ch.blanksDropped) (n + 1) fit.2
        (by rw [keys]; exact nodup)
        (by rw [added, List.length_append, List.length_append, List.length_singleton]; omega)
      refine ⟨loaded, ?_, ?_⟩
      · rw [result, added, List.map_cons, List.append_assoc, List.singleton_append]
      · rw [List.map_cons, loadCacheLines, head?_cacheRow, if_neg Bool.false_ne_true,
          scanCacheRow_row fit.1]
        simp only [accepted, if_true, run]
        rw [List.length_cons]
        push_cast
        congr 1
        omega

theorem loadCacheLines_comments {comments : List CStr}
    (hashes : ∀ line ∈ comments, line.head? = some '#') (db : ChannelDb) (n : Nat)
    (lines : List CStr) :
    loadCacheLines db n ((comments.map fun line => line ++ ['\n']) ++ lines) =
      loadCacheLines db n lines := by
  induction comments with
  | nil => rfl
  | cons line comments ih =>
      rw [List.forall_mem_cons] at hashes
      have skipped : ((line ++ ['\n']).head?.all
          fun character => character = '#' || character = '\n') = true := by
        rw [List.head?_append, hashes.1]
        decide
      rw [List.map_cons, List.cons_append, loadCacheLines, if_pos skipped, ih hashes.2]

/-- What a saved database is loaded as. -/
theorem load_save (db : ChannelDb) (fit : ∀ ch ∈ db.channels, CacheChannel ch) :
    ∃ loaded : ChannelDb, loaded.channels = db.channels.map DvbChannel.blanksDropped ∧
      dvbChannelDbLoad (dvbChannelDbSave db) ChannelDb.empty =
        (loaded, ((db.channels.length : Nat) : Int)) := by
  obtain ⟨loaded, result, run⟩ := loadCacheLines_rows ChannelDb.empty 0 fit
    (by simpa [ChannelDb.empty] using db.keys_nodup) (by simpa [ChannelDb.empty] using db.bounded)
  refine ⟨loaded, by simpa [ChannelDb.empty] using result, ?_⟩
  have fromZero : ((0 : Nat) : Int) + db.channels.length = db.channels.length := by omega
  rw [fromZero] at run
  rw [dvbChannelDbLoad, cacheLines_save fit, List.map_append,
    loadCacheLines_comments fun line member => (cacheHeader_fits line member).1, List.map_map]
  exact run

/-- A channel as a scan stores it: C integers, and a name from a virtual
channel table or the one made up from the RF channel and the program. -/
structure ScannedChannel (ch : DvbChannel) : Prop where
  major : -2 ^ 31 ≤ ch.major ∧ ch.major < 2 ^ 31
  minor : -2 ^ 31 ≤ ch.minor ∧ ch.minor < 2 ^ 31
  rfChannel : -2 ^ 31 ≤ ch.rfChannel ∧ ch.rfChannel < 2 ^ 31
  name : (∃ sec maxOut parsed, psipParseTvct sec maxOut = some parsed ∧
      ∃ entry ∈ parsed.1, ch.shortName = entry.shortName.take 15) ∨
    ∃ rfChannel program : Nat,
      ch.shortName = (decimal rfChannel ++ '-' :: decimal program).take 15

theorem ScannedChannel.cacheChannel {ch : DvbChannel} (scanned : ScannedChannel ch) :
    CacheChannel ch := by
  refine ⟨scanned.major, scanned.minor, scanned.rfChannel, ?_, ?_⟩
  · obtain ⟨_, _, _, _, entry, _, name⟩ | ⟨_, _, name⟩ := scanned.name
    · rw [name, List.length_take]
      omega
    · rw [name, List.length_take]
      omega
  · obtain ⟨sec, maxOut, parsed, read, entry, member, name⟩ | ⟨rfChannel, program, name⟩ :=
      scanned.name
    · rw [name]
      intro character inside
      exact (tableName_psipParseTvct read entry member).printable character
        (List.mem_of_mem_take inside)
    · rw [name]
      have digit {n : Nat} {character : Char} (inside : character ∈ decimal n) :
          ' ' ≤ character ∧ character ≤ '~' := by
        have bounds := isDigit_decimal inside
        simp only [Char.isDigit, Bool.and_eq_true, decide_eq_true_eq] at bounds
        exact ⟨Char.le_trans (by decide) bounds.1, Char.le_trans bounds.2 (by decide)⟩
      intro character inside
      have whole := List.mem_of_mem_take inside
      rw [List.mem_append, List.mem_cons] at whole
      obtain front | rfl | back := whole
      · exact digit front
      · decide
      · exact digit back

theorem blanksDropped_eq_self_iff (ch : DvbChannel) :
    ch.blanksDropped = ch ↔ ch.shortName.head? ≠ some ' ' := by
  have name : ch.blanksDropped = ch ↔ ch.shortName.dropWhile (· = ' ') = ch.shortName := by
    constructor
    · intro same
      exact congrArg DvbChannel.shortName same
    · intro same
      rw [DvbChannel.blanksDropped, same]
  rw [name]
  cases ch.shortName with
  | nil => simp
  | cons first rest =>
      by_cases blank : first = ' '
      · have shorter := (List.dropWhile_suffix (l := rest) fun character => decide (character = ' ')).length_le
        rw [List.dropWhile_cons_of_pos (by simpa using blank)]
        refine iff_of_false (fun same => ?_) (fun other => other (by rw [blank]; rfl))
        rw [same, List.length_cons] at shorter
        omega
      · rw [List.dropWhile_cons_of_neg (by simpa using blank)]
        exact iff_of_true rfl (by simpa using blank)

/-- A database of scan results comes back from the cache as it was, with its
number of channels, exactly when no name begins with a blank. -/
theorem cache_round_trip_iff (channels : List DvbChannel)
    (scanned : ∀ ch ∈ channels, ScannedChannel ch) :
    dvbChannelDbLoad (dvbChannelDbSave (ChannelDb.empty.addAll channels)) ChannelDb.empty =
        (ChannelDb.empty.addAll channels,
          (((ChannelDb.empty.addAll channels).channels.length : Nat) : Int)) ↔
      ∀ ch ∈ (ChannelDb.empty.addAll channels).channels, ch.shortName.head? ≠ some ' ' := by
  have fit : ∀ ch ∈ (ChannelDb.empty.addAll channels).channels, CacheChannel ch := by
    intro ch member
    obtain none_ | added := ChannelDb.mem_addAll member
    · exact absurd none_ List.not_mem_nil
    · exact (scanned ch (ChannelDb.taken_subset added)).cacheChannel
  obtain ⟨loaded, result, run⟩ := load_save _ fit
  rw [run]
  constructor
  · intro same ch member
    have db_eq : loaded = ChannelDb.empty.addAll channels := congrArg Prod.fst same
    rw [db_eq] at result
    have each := List.map_inj_left.mp (result.symm.trans (List.map_id _).symm)
    exact (blanksDropped_eq_self_iff ch).mp (each ch member)
  · intro plain
    have each : (ChannelDb.empty.addAll channels).channels.map DvbChannel.blanksDropped =
        (ChannelDb.empty.addAll channels).channels.map id :=
      List.map_inj_left.mpr fun ch member => (blanksDropped_eq_self_iff ch).mpr (plain ch member)
    rw [List.map_id] at each
    rw [ChannelDb.eq_of_channels (result.trans each)]

/-- The cable channel that is made up for program 3 on RF channel 24. -/
def madeUpChannel : DvbChannel :=
  { DvbChannel.zero with
    major := 24, minor := 3, shortName := "24-3".toList, rfChannel := 24, delivery := .qam,
    frequencyHz := 225000000, programNumber := 3, pmtPid := 0x30, videoPid := 0x31,
    videoStreamType := 0x02 }

theorem scannedChannel_madeUp : ScannedChannel madeUpChannel where
  major := by decide
  minor := by decide
  rfChannel := by decide
  name := .inr ⟨24, 3, by decide⟩

theorem cache_round_trip_iff_madeUp :
    dvbChannelDbLoad (dvbChannelDbSave (ChannelDb.empty.addAll [madeUpChannel]))
          ChannelDb.empty =
        (ChannelDb.empty.addAll [madeUpChannel],
          (((ChannelDb.empty.addAll [madeUpChannel]).channels.length : Nat) : Int)) ↔
      ∀ ch ∈ (ChannelDb.empty.addAll [madeUpChannel]).channels, ch.shortName.head? ≠ some ' ' :=
  cache_round_trip_iff _ (by
    intro ch member
    rw [List.mem_singleton.mp member]
    exact scannedChannel_madeUp)

/-- A virtual channel table with one channel, 2.1, that is named `" A"`. -/
def blankLedTvct : List UInt8 :=
  [0xC8, 0xF0, 0x2B, 0, 1, 0xC1, 0, 0, 0, 1] ++
    [0, 0x20, 0, 0x41, 0, 0, 0, 0, 0, 0, 0, 0, 0, 0] ++ [0xF0, 0x08, 0x01] ++
    [0x04, 0, 0, 0, 0] ++ [0, 1, 0, 3] ++ [0x0D, 0xC2, 0, 1, 0xFC, 0] ++ [0, 0, 0, 0]

def blankLedChannel : DvbChannel :=
  { DvbChannel.zero with
    major := 2, minor := 1, shortName := " A".toList, frequencyHz := 57000000, channelTsid := 1,
    programNumber := 3 }

/-- A name that begins with a blank does not survive. -/
theorem blank_led_name_altered :
    ScannedChannel blankLedChannel ∧
      dvbChannelDbLoad (dvbChannelDbSave (ChannelDb.empty.addAll [blankLedChannel]))
          ChannelDb.empty ≠
        (ChannelDb.empty.addAll [blankLedChannel],
          (((ChannelDb.empty.addAll [blankLedChannel]).channels.length : Nat) : Int)) := by
  have scanned : ScannedChannel blankLedChannel :=
    { major := by decide
      minor := by decide
      rfChannel := by decide
      name := .inl ⟨blankLedTvct, 64, ([⟨" A".toList, 2, 1, 1, 3, false⟩], 0, 0), by decide +kernel,
        _, List.mem_singleton_self _, rfl⟩ }
  refine ⟨scanned, fun same => ?_⟩
  obtain ⟨loaded, result, run⟩ := load_save (ChannelDb.empty.addAll [blankLedChannel]) (by
    intro ch member
    have only : ch = blankLedChannel := by
      obtain none_ | added := ChannelDb.mem_addAll member
      · exact absurd none_ List.not_mem_nil
      · exact List.mem_singleton.mp (ChannelDb.taken_subset added)
    rw [only]
    exact scanned.cacheChannel)
  rw [run] at same
  have db_eq : loaded = ChannelDb.empty.addAll [blankLedChannel] := congrArg Prod.fst same
  rw [db_eq] at result
  revert result
  decide

end HdhrEmu
