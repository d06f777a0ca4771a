import HdhrEmu.Channel
import HdhrEmu.Lib.Scanf
import HdhrEmu.Tuner
import Mathlib.Data.List.TakeWhile

/-!
# The program list of a tuner

`GET /tunerN/streaminfo` prints the channels on the tuned frequency into a
buffer of fixed size, and the web interface splits the text into lines and
scans them again.
-/

namespace HdhrEmu

open CString

/-- `sizeof(val)` in `handle_tuner_get`, and of the buffers of the web interface. -/
def replySize : Nat := 512

def upperDigit (digit : Nat) : Char :=
  "0123456789ABCDEF".toList.getD digit '0'

/-- `%04X` of 16 bits. -/
def upperHex4 (value : UInt16) : CStr :=
  [upperDigit (value.toNat / 4096), upperDigit (value.toNat / 256 % 16),
    upperDigit (value.toNat / 16 % 16), upperDigit (value.toNat % 16)]

def tsidLine (tsid : UInt16) : CStr :=
  "tsid=0x".toList ++ upperHex4 tsid

/-- `%u` of an `int`. -/
def decimalUnsigned (i : Int) : CStr :=
  decimal (UInt32.ofInt i).toNat

/-- `"%u: %u.%u %s"`. -/
def programLine (ch : DvbChannel) : CStr :=
  decimal ch.programNumber.toNat ++ ':' :: ' ' :: (decimalUnsigned ch.major ++
    '.' :: (decimalUnsigned ch.minor ++ ' ' :: ch.shortName))

/-- A sequence of `snprintf(val + off, size - off, ...)`, as long as `off` is
inside of the buffer: the text in the buffer, and `off`. -/
def snprintfAll (size : Nat) (texts : List CStr) : CStr × Nat :=
  texts.foldl (fun (val, off) text =>
    if off < size then (val ++ text.take (size - off - 1), off + text.length) else (val, off))
    ([], 0)

/-- The lines of a reply; `chs` holds 32 channels. -/
def streaminfoLines (db : ChannelDb) (freq : UInt32) : List CStr :=
  match (db.onFreq freq).take 32 with
  | [] => []
  | first :: rest => tsidLine first.channelTsid :: (first :: rest).map programLine

/-- `GET /tunerN/streaminfo`. -/
def streaminfoReply (db : ChannelDb) (freq : UInt32) : CStr :=
  if freq = 0 then noneText
  else if (db.onFreq freq).take 32 = [] then noneText
  else (snprintfAll replySize ((streaminfoLines db freq).map fun line => line ++ ['\n'])).1

structure StreamProgram where
  program : Nat
  major : Int
  minor : Int
  name : CStr
  deriving DecidableEq, Repr

/-- The numbers that `"%u: %u.%u "` reads, and the rest of the line. -/
def scanNumbers (line : CStr) : Option ((Nat × Nat × Nat) × CStr) := do
  let (program, line) ← scanUnsigned 32 line
  let line ← scanLiteral ':' line
  let (major, line) ← scanUnsigned 32 (scanBlank line)
  let line ← scanLiteral '.' line
  let (minor, line) ← scanUnsigned 32 line
  some ((program, major, minor), scanBlank line)

/-- `sscanf(line, "%u: %u.%u %63[^\n]", ...) == 4`. -/
def scanProgram (line : CStr) : Option StreamProgram :=
  match scanNumbers line with
  | none => none
  | some ((program, major, minor), rest) =>
      let name := (rest.takeWhile (· ≠ '\n')).take 63
      if name = [] then none else some ⟨program, major, minor, name⟩

/-- The lines that `strtok_r` returns. -/
def strtokLines (text : CStr) : List CStr :=
  (text.splitOn '\n').filter (· ≠ [])

/-- What `append_tuner_json` lists: the reply goes through the buffer of the
client and a copy of it. -/
def webPrograms (db : ChannelDb) (freq : UInt32) : List StreamProgram :=
  let streaminfo := truncate replySize (streaminfoReply db freq)
  (strtokLines (truncate replySize streaminfo)).filterMap scanProgram

/-- What it is to list. -/
def channelPrograms (db : ChannelDb) (freq : UInt32) : List StreamProgram :=
  (db.onFreq freq).map fun ch => ⟨ch.programNumber.toNat, ch.major, ch.minor, ch.shortName⟩

/-- A name that `%63[^\n]` reads as a whole behind a blank. -/
structure NameShown (name : CStr) : Prop where
  nonempty : name ≠ []
  unblanked : ∀ character ∈ name.head?, isSpace character = false
  oneLine : '\n' ∉ name
  short : name.length ≤ 63

/-- A channel that is printed and scanned without loss. -/
structure ChannelShown (ch : DvbChannel) : Prop where
  major : 0 ≤ ch.major ∧ ch.major < 2 ^ 32
  minor : 0 ≤ ch.minor ∧ ch.minor < 2 ^ 32
  name : NameShown ch.shortName

/-- The room that lines take, each with its newline. -/
def linesLength (lines : List CStr) : Nat :=
  (lines.map fun line => line.length + 1).sum

/-- When the list is complete: every channel can be shown, there are at most 32
of them, and their lines fit the buffer without the last newline. -/
def ProgramsShown (db : ChannelDb) (freq : UInt32) : Prop :=
  (∀ ch ∈ db.onFreq freq, ChannelShown ch) ∧ (db.onFreq freq).length ≤ 32 ∧
    linesLength (streaminfoLines db freq) ≤ replySize

theorem snprintfAll_eq {size : Nat} (texts : List CStr) :
    (snprintfAll size texts).1 = texts.flatten.take (size - 1) := by
  have all : ∀ (texts : List CStr) (val : CStr) (off : Nat) (done : CStr),
      val = done.take (size - 1) → off = done.length →
        (texts.foldl (fun (val, off) text =>
          if off < size then (val ++ text.take (size - off - 1), off + text.length)
          else (val, off)) (val, off)).1 = (done ++ texts.flatten).take (size - 1) := by
    intro texts
    induction texts with
    | nil =>
        intro val off done held _
        rw [List.foldl_nil, List.flatten_nil, List.append_nil, held]
    | cons text texts ih =>
        intro val off done held length
        rw [List.foldl_cons, List.flatten_cons, ← List.append_assoc]
        by_cases inside : off < size
        · simp only [if_pos inside]
          apply ih
          · rw [held, List.take_append, length]
            congr 2
            omega
          · rw [List.length_append, length]
        · simp only [if_neg inside]
          -- once the buffer is full, what is printed behind it is not seen
          have full (more : CStr) : (done ++ more).take (size - 1) = done.take (size - 1) :=
            List.take_append_of_le_length (by omega)
          have rest := ih val off done held length
          rw [rest, List.append_assoc, full, full]
  exact (all texts [] 0 [] (List.take_nil).symm rfl).trans (by rw [List.nil_append])

/-- The lines that are left of a text that is cut after `room` characters. -/
def cutLines : Nat → List CStr → List CStr
  | _, [] => []
  | room, line :: lines =>
      if room ≤ line.length then [line.take room]
      else line :: cutLines (room - line.length - 1) lines

theorem splitOn_cut {lines : List CStr} (oneLine : ∀ line ∈ lines, '\n' ∉ line) (room : Nat) :
    strtokLines ((lines.flatMap fun line => line ++ ['\n']).take room) =
      (cutLines room lines).filter (· ≠ []) := by
  induction lines generalizing room with
  | nil =>
      rw [List.flatMap_nil, List.take_nil]
      rfl
  | cons line lines ih =>
      rw [List.forall_mem_cons] at oneLine
      rw [List.flatMap_cons, List.append_assoc, List.singleton_append, cutLines]
      by_cases cut : room ≤ line.length
      · have absent : '\n' ∉ line.take room := fun member =>
          oneLine.1 (List.mem_of_mem_take member)
        rw [if_pos cut, List.take_append_of_le_length cut, strtokLines,
          List.splitOn_eq_singleton absent]
      · obtain ⟨left, room_eq⟩ : ∃ left, room - line.length = left + 1 :=
          ⟨room - line.length - 1, by omega⟩
        have whole : line.take room = line := List.take_of_length_le (by omega)
        have rest := ih oneLine.2 left
        unfold strtokLines at rest ⊢
        rw [if_neg cut, List.take_append, whole, room_eq, List.take_succ_cons,
          List.splitOn_append_cons_self_of_not_mem oneLine.1, List.filter_cons, rest,
          List.filter_cons, Nat.add_sub_cancel]

/-- The line of the transport stream is no program. -/
theorem scanProgram_tsid (tsid : UInt16) (room : Nat) :
    scanProgram ((tsidLine tsid).take room) = none := by
  cases room <;> rfl

/-- The steps of a scan that reads the three numbers. -/
theorem scanNumbers_eq_some_iff {line rest : CStr} {program major minor : Nat} :
    scanNumbers line = some ((program, major, minor), rest) ↔
      ∃ r1 r2 r3 r4 r5, scanUnsigned 32 line = some (program, r1) ∧
        scanLiteral ':' r1 = some r2 ∧ scanUnsigned 32 (scanBlank r2) = some (major, r3) ∧
        scanLiteral '.' r3 = some r4 ∧ scanUnsigned 32 r4 = some (minor, r5) ∧
        rest = scanBlank r5 := by
  constructor
  · intro scanned
    obtain ⟨⟨_, r1⟩, first, scanned⟩ := Option.bind_eq_some_iff.mp scanned
    obtain ⟨r2, colon, scanned⟩ := Option.bind_eq_some_iff.mp scanned
    obtain ⟨⟨_, r3⟩, second, scanned⟩ := Option.bind_eq_some_iff.mp scanned
    obtain ⟨r4, dot, scanned⟩ := Option.bind_eq_some_iff.mp scanned
    obtain ⟨⟨_, r5⟩, third, scanned⟩ := Option.bind_eq_some_iff.mp scanned
    cases scanned
    exact ⟨r1, r2, r3, r4, r5, first, colon, second, dot, third, rfl⟩
  · rintro ⟨r1, r2, r3, r4, r5, first, colon, second, dot, third, rfl⟩
    simp only [scanNumbers, first, colon, second, dot, third, Option.bind_eq_bind,
      Option.bind_some]

/-- A program is three numbers and a name. -/
theorem scanProgram_eq_some_iff {line : CStr} {entry : StreamProgram} :
    scanProgram line = some entry ↔
      ∃ program major minor rest, scanNumbers line = some ((program, major, minor), rest) ∧
        (rest.takeWhile (· ≠ '\n')).take 63 ≠ [] ∧
        entry = ⟨program, major, minor, (rest.takeWhile (· ≠ '\n')).take 63⟩ := by
  unfold scanProgram
  cases numbers : scanNumbers line with
  | none => simp
  | some read =>
      obtain ⟨⟨program, major, minor⟩, rest⟩ := read
      dsimp only
      split
      · rename_i nameless
        constructor
        · nofun
        · rintro ⟨_, _, _, _, same, named, -⟩
          cases same
          exact absurd nameless named
      · rename_i named
        simp only [Option.some.injEq, Prod.mk.injEq]
        constructor
        · rintro rfl
          exact ⟨program, major, minor, rest, ⟨⟨rfl, rfl, rfl⟩, rfl⟩, named, rfl⟩
        · rintro ⟨_, _, _, _, ⟨⟨rfl, rfl, rfl⟩, rfl⟩, -, rfl⟩
          rfl

theorem head?_takeWhile_oneLine {text : CStr} {character : Char}
    (member : character ∈ (text.takeWhile (· ≠ '\n')).head?) : text.head? = some character := by
  cases text with
  | nil => cases member
  | cons other others =>
      by_cases newline : other = '\n'
      · rw [List.takeWhile_cons_of_neg (by simpa using newline)] at member
        cases member
      · rw [List.takeWhile_cons_of_pos (by simpa using newline)] at member
        exact member

/-- Whatever is scanned can be shown. -/
theorem shown_of_scanProgram {line : CStr} {entry : StreamProgram}
    (scanned : scanProgram line = some entry) :
    NameShown entry.name ∧ (0 ≤ entry.major ∧ entry.major < 2 ^ 32) ∧
      (0 ≤ entry.minor ∧ entry.minor < 2 ^ 32) := by
  obtain ⟨program, major, minor, rest, numbers, named, rfl⟩ := scanProgram_eq_some_iff.mp scanned
  obtain ⟨r1, r2, r3, r4, r5, -, -, second, -, third, rfl⟩ := scanNumbers_eq_some_iff.mp numbers
  have majorBound := lt_of_scanUnsigned second
  have minorBound := lt_of_scanUnsigned third
  refine ⟨⟨named, ?_, ?_, ?_⟩, by dsimp only; omega, by dsimp only; omega⟩
  · intro character member
    have first := List.head?_dropWhile_not isSpace r5
    rw [List.head?_take, if_neg (by decide)] at member
    have head : (r5.dropWhile isSpace).head? = some character := head?_takeWhile_oneLine member
    rw [head] at first
    simpa using first
  · intro member
    have inside := List.mem_of_mem_take member
    simpa using List.mem_takeWhile_imp inside
  · rw [List.length_take]
    exact Nat.min_le_left _ _

theorem takeWhile_oneLine {text : CStr} (oneLine : '\n' ∉ text) :
    text.takeWhile (· ≠ '\n') = text := by
  rw [List.takeWhile_eq_self_iff]
  intro character member
  have other : character ≠ '\n' := fun same => oneLine (same ▸ member)
  simpa using other

theorem scanBlank_decimal (n : Nat) (rest : CStr) :
    scanBlank (' ' :: (decimal n ++ rest)) = decimal n ++ rest :=
  dropWhile_isSpace_decimal n rest

theorem scanBlank_name {name : CStr} (shown : NameShown name) : scanBlank (' ' :: name) = name := by
  have skipped : scanBlank (' ' :: name) = name.dropWhile isSpace := rfl
  obtain ⟨first, rest, whole⟩ := List.exists_cons_of_ne_nil shown.nonempty
  have notSpace := shown.unblanked first (by rw [whole]; rfl)
  rw [skipped, whole, List.dropWhile_cons_of_neg]
  rw [notSpace]
  decide

theorem toNat_ofInt {i : Int} (range : 0 ≤ i ∧ i < 2 ^ 32) : (UInt32.ofInt i).toNat = i.toNat := by
  rw [UInt32.ofInt, UInt32.toNat_ofNat']
  omega

/-- What is in front of the name in the line of a channel. -/
def programHead (ch : DvbChannel) : CStr :=
  decimal ch.programNumber.toNat ++ ':' :: ' ' :: (decimalUnsigned ch.major ++
    '.' :: (decimalUnsigned ch.minor ++ [' ']))

theorem programLine_eq (ch : DvbChannel) : programLine ch = programHead ch ++ ch.shortName := by
  simp only [programLine, programHead, List.append_assoc, List.cons_append, List.nil_append]

/-- The numbers of a channel, and what is behind them. -/
theorem scanNumbers_programHead (ch : DvbChannel) (name : CStr) :
    scanNumbers (programHead ch ++ name) =
      some ((ch.programNumber.toNat, (UInt32.ofInt ch.major).toNat,
        (UInt32.ofInt ch.minor).toNat), scanBlank name) := by
  have program : ch.programNumber.toNat < 2 ^ 32 :=
    Nat.lt_trans ch.programNumber.toNat_lt (by decide)
  have line : programHead ch ++ name = decimal ch.programNumber.toNat ++ ':' :: ' ' ::
      (decimalUnsigned ch.major ++ '.' :: (decimalUnsigned ch.minor ++ ' ' :: name)) := by
    simp only [programHead, List.append_assoc, List.cons_append, List.nil_append]
  rw [line, decimalUnsigned, decimalUnsigned]
  apply scanNumbers_eq_some_iff.mpr
  refine ⟨_, _, _, _, _,
    scanUnsigned_decimal (by decide) program (endsNumeral_cons (by decide) _),
    scanLiteral_cons _ _, ?_, scanLiteral_cons _ _,
    scanUnsigned_decimal (by decide) (UInt32.toNat_lt _) (@endsNumeral_cons ' ' (by decide) name), rfl⟩
  rw [scanBlank_decimal]
  exact scanUnsigned_decimal (by decide) (UInt32.toNat_lt _) (endsNumeral_cons (by decide) _)

theorem scanNumbers_programLine {ch : DvbChannel} (shown : ChannelShown ch) :
    scanNumbers (programLine ch) =
      some ((ch.programNumber.toNat, ch.major.toNat, ch.minor.toNat), ch.shortName) := by
  have name : scanBlank ch.shortName = ch.shortName := scanBlank_name shown.name
  rw [programLine_eq, scanNumbers_programHead, toNat_ofInt shown.major, toNat_ofInt shown.minor,
    name]

/-- A channel that can be shown is scanned as it was printed. -/
theorem scanProgram_programLine {ch : DvbChannel} (shown : ChannelShown ch) :
    scanProgram (programLine ch) =
      some ⟨ch.programNumber.toNat, ch.major, ch.minor, ch.shortName⟩ := by
  have name : (ch.shortName.takeWhile (· ≠ '\n')).take 63 = ch.shortName := by
    rw [takeWhile_oneLine shown.name.oneLine, List.take_of_length_le shown.name.short]
  apply scanProgram_eq_some_iff.mpr
  refine ⟨_, _, _, _, scanNumbers_programLine shown, ?_, ?_⟩
  · rw [name]
    exact shown.name.nonempty
  · rw [name, Int.toNat_of_nonneg shown.major.1, Int.toNat_of_nonneg shown.minor.1]

/-- Once the name has begun, whatever follows belongs to it. -/
theorem scanNumbers_append {front rest : CStr} {numbers : Nat × Nat × Nat}
    (scanned : scanNumbers front = some (numbers, rest)) (begun : rest ≠ []) (behind : CStr) :
    scanNumbers (front ++ behind) = some (numbers, rest ++ behind) := by
  obtain ⟨program, major, minor⟩ := numbers
  obtain ⟨r1, r2, r3, r4, r5, first, colon, second, dot, third, rfl⟩ :=
    scanNumbers_eq_some_iff.mp scanned
  have more1 : r1 ≠ [] := by rintro rfl; cases colon
  have more2 : scanBlank r2 ≠ [] := by
    intro empty
    rw [empty] at second
    cases second
  have more3 : r3 ≠ [] := by rintro rfl; cases dot
  have more5 : r5 ≠ [] := by rintro rfl; exact begun rfl
  apply scanNumbers_eq_some_iff.mpr
  refine ⟨r1 ++ behind, r2 ++ behind, r3 ++ behind, r4 ++ behind, r5 ++ behind,
    scanUnsigned_append first more1 behind, scanLiteral_append colon behind, ?_,
    scanLiteral_append dot behind, scanUnsigned_append third more5 behind,
    (scanBlank_append begun behind).symm⟩
  rw [scanBlank_append more2]
  exact scanUnsigned_append second more3 behind

theorem newline_not_mem_programLine {ch : DvbChannel} (oneLine : '\n' ∉ ch.shortName) :
    '\n' ∉ programLine ch := by
  have blank : '\n' ≠ ' ' := by decide
  have colon : '\n' ≠ ':' := by decide
  have dot : '\n' ≠ '.' := by decide
  simp only [programLine, decimalUnsigned, List.mem_append, List.mem_cons,
    newline_not_mem_decimal, blank, colon, dot, oneLine, or_self, not_false_eq_true]

theorem newline_not_mem_upperHex4 (value : UInt16) : '\n' ∉ upperHex4 value := by
  have bound := value.toNat_lt
  have digit : ∀ d < 16, upperDigit d ≠ '\n' := by decide
  intro member
  unfold upperHex4 at member
  rw [List.mem_cons, List.mem_cons, List.mem_cons, List.mem_singleton] at member
  obtain same | same | same | same := member
  · exact digit _ (by omega) same.symm
  · exact digit _ (by omega) same.symm
  · exact digit _ (by omega) same.symm
  · exact digit _ (by omega) same.symm

theorem newline_not_mem_tsidLine (tsid : UInt16) : '\n' ∉ tsidLine tsid := by
  intro member
  obtain front | back := List.mem_append.mp member
  · exact absurd front (by decide)
  · exact newline_not_mem_upperHex4 tsid back

/-- The front of a line that gives the whole program is the whole line. -/
theorem scanProgram_front {ch : DvbChannel} (shown : ChannelShown ch) {front behind : CStr}
    (line : front ++ behind = programLine ch)
    (scanned : scanProgram front =
      some ⟨ch.programNumber.toNat, ch.major, ch.minor, ch.shortName⟩) : behind = [] := by
  obtain ⟨program, major, minor, rest, numbers, named, entry⟩ := scanProgram_eq_some_iff.mp scanned
  have begun : rest ≠ [] := by
    rintro rfl
    exact named rfl
  have whole := scanNumbers_append numbers begun behind
  rw [line, scanNumbers_programLine shown] at whole
  have split : ch.shortName = rest ++ behind := congrArg Prod.snd (Option.some.inj whole)
  have name : ch.shortName = (rest.takeWhile (· ≠ '\n')).take 63 :=
    congrArg StreamProgram.name entry
  have short := shown.name.short
  have oneLine : '\n' ∉ rest := by
    intro member
    apply shown.name.oneLine
    rw [split]
    exact List.mem_append_left _ member
  rw [split, List.length_append] at short
  rw [takeWhile_oneLine oneLine, List.take_of_length_le (by omega)] at name
  have lengths := congrArg List.length (split.symm.trans name)
  rw [List.length_append] at lengths
  exact List.eq_nil_of_length_eq_zero (by omega)

/-- Lines that fit without the last newline are all left whole. -/
theorem cutLines_eq_self {room : Nat} {lines : List CStr}
    (fits : linesLength lines ≤ room + 1) : cutLines room lines = lines := by
  induction lines generalizing room with
  | nil => rfl
  | cons line lines ih =>
      rw [linesLength, List.map_cons, List.sum_cons] at fits
      change line.length + 1 + linesLength lines ≤ room + 1 at fits
      rw [cutLines]
      by_cases cut : room ≤ line.length
      · have nothing : lines = [] := by
          cases lines with
          | nil => rfl
          | cons next rest =>
              rw [linesLength, List.map_cons, List.sum_cons] at fits
              omega
        rw [if_pos cut, nothing, List.take_of_length_le (by omega)]
      · rw [if_neg cut, ih (by omega)]

theorem length_cutLines (room : Nat) (lines : List CStr) :
    (cutLines room lines).length ≤ lines.length := by
  induction lines generalizing room with
  | nil => exact Nat.le_refl 0
  | cons line lines ih =>
      rw [cutLines]
      split
      · rw [List.length_singleton, List.length_cons]
        omega
      · rw [List.length_cons, List.length_cons]
        exact Nat.succ_le_succ (ih _)

/-- What a cut leaves has room, and one newline more may have been cut off. -/
theorem linesLength_cutLines (room : Nat) (lines : List CStr) :
    linesLength (cutLines room lines) ≤ room + 1 := by
  induction lines generalizing room with
  | nil => exact Nat.zero_le _
  | cons line lines ih =>
      rw [cutLines]
      split
      · rw [linesLength, List.map_singleton, List.sum_singleton, List.length_take]
        omega
      · have rest := ih (room - line.length - 1)
        rw [linesLength, List.map_cons, List.sum_cons]
        change line.length + 1 + linesLength (cutLines _ lines) ≤ room + 1
        omega

/-- Every line that is left is the front of a line. -/
theorem front_of_mem_cutLines {room : Nat} {lines : List CStr} {line : CStr}
    (member : line ∈ cutLines room lines) : ∃ whole ∈ lines, line <+: whole := by
  induction lines generalizing room with
  | nil => cases member
  | cons first lines ih =>
      rw [cutLines] at member
      split at member
      · rw [List.mem_singleton] at member
        exact ⟨first, List.mem_cons_self, member ▸ List.take_prefix _ _⟩
      · rcases List.mem_cons.mp member with rfl | later
        · exact ⟨line, List.mem_cons_self, List.prefix_refl _⟩
        · obtain ⟨whole, inside, front⟩ := ih later
          exact ⟨whole, List.mem_cons_of_mem _ inside, front⟩

def programOf (ch : DvbChannel) : StreamProgram :=
  ⟨ch.programNumber.toNat, ch.major, ch.minor, ch.shortName⟩

/-- If all programs are found in what a cut has left, nothing but the last
newline was cut. -/
theorem fits_of_filterMap_cutLines {room : Nat} {chs : List DvbChannel}
    (shown : ∀ ch ∈ chs, ChannelShown ch)
    (found : (cutLines room (chs.map programLine)).filterMap scanProgram = chs.map programOf) :
    linesLength (chs.map programLine) ≤ room + 1 := by
  induction chs generalizing room with
  | nil => exact Nat.zero_le _
  | cons ch chs ih =>
      rw [List.forall_mem_cons] at shown
      rw [List.map_cons, cutLines] at found
      rw [linesLength, List.map_cons, List.map_cons, List.sum_cons]
      change (programLine ch).length + 1 + linesLength (chs.map programLine) ≤ room + 1
      by_cases cut : room ≤ (programLine ch).length
      · rw [if_pos cut, List.map_cons] at found
        -- one line is left: it is the only one, and it is whole
        have one := congrArg List.length found
        have most := List.length_filterMap_le scanProgram [(programLine ch).take room]
        rw [List.length_singleton] at most
        rw [List.length_cons, List.length_map] at one
        have only : chs = [] := List.eq_nil_of_length_eq_zero (by omega)
        subst only
        have scanned : scanProgram ((programLine ch).take room) = some (programOf ch) := by
          cases scan : scanProgram ((programLine ch).take room) with
          | none => simp [scan] at found
          | some entry => simpa [scan] using found
        have whole := scanProgram_front shown.1
          (List.take_append_drop room (programLine ch)) scanned
        have length := congrArg List.length whole
        rw [List.length_drop, List.length_nil] at length
        rw [List.map_nil, linesLength, List.map_nil, List.sum_nil]
        omega
      · rw [if_neg cut, List.filterMap_cons, scanProgram_programLine shown.1, List.map_cons] at found
        have rest := ih shown.2 (List.cons.inj found).2
        omega

theorem streaminfoReply_eq {db : ChannelDb} {freq : UInt32} (tuned : freq ≠ 0)
    (known : db.onFreq freq ≠ []) :
    streaminfoReply db freq =
      ((streaminfoLines db freq).flatMap fun line => line ++ ['\n']).take (replySize - 1) := by
  have some_ : (db.onFreq freq).take 32 ≠ [] := by
    rw [Ne, List.take_eq_nil_iff]
    simp [known]
  rw [streaminfoReply, if_neg tuned, if_neg some_, snprintfAll_eq, List.flatMap_def]

theorem newline_not_mem_streaminfoLines {db : ChannelDb} {freq : UInt32}
    (oneLine : ∀ ch ∈ db.onFreq freq, '\n' ∉ ch.shortName) :
    ∀ line ∈ streaminfoLines db freq, '\n' ∉ line := by
  intro line member
  have inside (ch : DvbChannel) (member : ch ∈ (db.onFreq freq).take 32) :
      '\n' ∉ programLine ch :=
    newline_not_mem_programLine (oneLine ch (List.mem_of_mem_take member))
  unfold streaminfoLines at member
  split at member
  · cases member
  · rename_i first rest shown
    rw [shown] at inside
    obtain rfl | program := List.mem_cons.mp member
    · exact newline_not_mem_tsidLine _
    · obtain ⟨ch, shownCh, rfl⟩ := List.mem_map.mp program
      exact inside ch shownCh

theorem webPrograms_eq {db : ChannelDb} {freq : UInt32} (tuned : freq ≠ 0)
    (known : db.onFreq freq ≠ []) (oneLine : ∀ ch ∈ db.onFreq freq, '\n' ∉ ch.shortName) :
    webPrograms db freq =
      (cutLines (replySize - 1) (streaminfoLines db freq)).filterMap scanProgram := by
  have nonempty (lines : List CStr) :
      (lines.filter (· ≠ [])).filterMap scanProgram = lines.filterMap scanProgram := by
    rw [List.filterMap_filter]
    congr 1
    funext line
    cases line with
    | nil => rfl
    | cons character rest => rfl
  rw [webPrograms, streaminfoReply_eq tuned known, truncate, truncate, List.take_take,
    List.take_take, Nat.min_self, Nat.min_self,
    splitOn_cut (newline_not_mem_streaminfoLines oneLine), nonempty]

/-- Nothing is listed where nothing is known. -/
theorem webPrograms_none {db : ChannelDb} {freq : UInt32}
    (nothing : freq = 0 ∨ db.onFreq freq = []) :
    streaminfoReply db freq = noneText ∧ webPrograms db freq = [] := by
  have reply : streaminfoReply db freq = noneText := by
    rw [streaminfoReply]
    rcases nothing with untuned | unknown
    · rw [if_pos untuned]
    · rw [unknown, List.take_nil, if_pos rfl]
      split <;> rfl
  refine ⟨reply, ?_⟩
  rw [webPrograms, reply]
  decide

/-- The lines of a reply give the programs behind the line of the transport
stream. -/
theorem webPrograms_tail {db : ChannelDb} {freq : UInt32} (tuned : freq ≠ 0)
    (known : db.onFreq freq ≠ []) (oneLine : ∀ ch ∈ db.onFreq freq, '\n' ∉ ch.shortName) :
    ∃ room, room + 1 + 12 = replySize ∧
      webPrograms db freq =
        (cutLines room (((db.onFreq freq).take 32).map programLine)).filterMap scanProgram ∧
      linesLength (streaminfoLines db freq) =
        12 + linesLength (((db.onFreq freq).take 32).map programLine) := by
  refine ⟨499, rfl, ?_, ?_⟩
  · rw [webPrograms_eq tuned known oneLine]
    unfold streaminfoLines
    split
    · rename_i nothing
      rw [nothing]
      rfl
    · rename_i first rest shown
      have length : (tsidLine first.channelTsid).length = 11 := rfl
      have behind : replySize - 1 - (tsidLine first.channelTsid).length - 1 = 499 := rfl
      have skipped : scanProgram (tsidLine first.channelTsid) = none := by
        have whole := scanProgram_tsid first.channelTsid 11
        rwa [List.take_of_length_le (Nat.le_of_eq length)] at whole
      rw [shown, cutLines, if_neg (by rw [length]; decide), behind, List.filterMap_cons, skipped]
  · unfold streaminfoLines
    split
    · rename_i nothing
      rw [List.take_eq_nil_iff] at nothing
      exact absurd nothing (by simp [known])
    · rename_i first rest shown
      have length : (tsidLine first.channelTsid).length = 11 := rfl
      rw [shown, linesLength, List.map_cons, List.sum_cons, length]
      rfl

theorem channelPrograms_eq (db : ChannelDb) (freq : UInt32) :
    channelPrograms db freq = (db.onFreq freq).map programOf :=
  rfl

/-- A list that is complete shows that every channel can be shown. -/
theorem shown_of_webPrograms {db : ChannelDb} {freq : UInt32}
    (complete : webPrograms db freq = channelPrograms db freq) :
    ∀ ch ∈ db.onFreq freq, ChannelShown ch := by
  intro ch member
  have listed : programOf ch ∈ webPrograms db freq := by
    rw [complete]
    exact List.mem_map_of_mem member
  obtain ⟨line, -, scanned⟩ := List.mem_filterMap.mp listed
  obtain ⟨name, major, minor⟩ := shown_of_scanProgram scanned
  exact ⟨major, minor, name⟩

/-- The web interface lists the channels of a tuned frequency as they are
exactly when they can be shown, are at most 32, and fit the buffer. -/
theorem programs_listed_iff (db : ChannelDb) (freq : UInt32) (tuned : freq ≠ 0) :
    webPrograms db freq = channelPrograms db freq ↔ ProgramsShown db freq := by
  by_cases known : db.onFreq freq = []
  · obtain ⟨-, nothing⟩ := @webPrograms_none db freq (.inr known)
    have lines : streaminfoLines db freq = [] := by
      rw [streaminfoLines, known]
      rfl
    rw [nothing, channelPrograms_eq, ProgramsShown, known, lines]
    exact iff_of_true rfl ⟨(fun _ member => nomatch member), Nat.zero_le _, Nat.zero_le _⟩
  · constructor
    · intro complete
      have shown := shown_of_webPrograms complete
      obtain ⟨room, size, listed, length⟩ := webPrograms_tail tuned known
        fun ch member => (shown ch member).name.oneLine
      have count : (db.onFreq freq).length ≤ 32 := by
        have total := congrArg List.length complete
        have most := List.length_filterMap_le scanProgram
          (cutLines room (((db.onFreq freq).take 32).map programLine))
        have lines := length_cutLines room (((db.onFreq freq).take 32).map programLine)
        rw [listed, channelPrograms_eq, List.length_map] at total
        rw [List.length_map, List.length_take] at lines
        omega
      have all : (db.onFreq freq).take 32 = db.onFreq freq := List.take_of_length_le count
      rw [all] at listed length
      have fits := fits_of_filterMap_cutLines shown (listed.symm.trans complete)
      exact ⟨shown, count, by omega⟩
    · rintro ⟨shown, count, fits⟩
      obtain ⟨room, size, listed, length⟩ := webPrograms_tail tuned known
        fun ch member => (shown ch member).name.oneLine
      have all : (db.onFreq freq).take 32 = db.onFreq freq := List.take_of_length_le count
      rw [all] at listed length
      rw [listed, cutLines_eq_self (by omega), channelPrograms_eq, List.filterMap_map]
      exact List.filterMap_eq_map_iff_forall_eq_some.mpr fun ch member =>
        scanProgram_programLine (shown ch member)

/-- A database with one channel, 2.1. -/
def namedDb (name : CStr) : ChannelDb :=
  ChannelDb.empty.add
    { DvbChannel.zero with
      major := 2, minor := 1, shortName := name, frequencyHz := 57000000, programNumber := 3 }

theorem programs_listed_iff_named :
    webPrograms (namedDb "WXYZ-DT".toList) 57000000 =
        channelPrograms (namedDb "WXYZ-DT".toList) 57000000 ↔
      ProgramsShown (namedDb "WXYZ-DT".toList) 57000000 :=
  programs_listed_iff _ _ (by decide)

/-- A channel without a name is not listed. -/
theorem nameless_program_dropped :
    webPrograms (namedDb []) 57000000 ≠ channelPrograms (namedDb []) 57000000 ∧
      webPrograms (namedDb []) 57000000 = [] := by
  decide

end HdhrEmu
