import HdhrEmu.Lib.JsonText
import HdhrEmu.StoredChannels
import HdhrEmu.StreamInfo

/-!
# Programs as JSON

The web interface lists the programs that it finds in a reply to a GET of
`streaminfo`.  The reply is cut where its buffer ends, so that its last line
may be the front of one; what is printed for a line is at most six times as
long as the line.
-/

namespace HdhrEmu

open CString

def programFields (entry : StreamProgram) : List Json.Field :=
  [.nat "program".toList entry.program,
    .nat "major".toList (UInt32.ofInt entry.major).toNat,
    .nat "minor".toList (UInt32.ofInt entry.minor).toNat,
    .string "name".toList entry.name]

theorem settled_programObject (entry : StreamProgram) :
    Json.Settled (Json.object (programFields entry)) (Json.Utf8 entry.name) := by
  have settled : ∀ field ∈ programFields entry, field.Settled := by
    intro field member
    simp only [programFields, List.mem_cons, List.not_mem_nil, or_false] at member
    rcases member with rfl | rfl | rfl | rfl
    · exact .nat rfl _
    · exact .nat rfl _
    · exact .nat rfl _
    · exact .string rfl _
  refine (Json.settled_object (List.cons_ne_nil _ _) settled).congr ?_
  simp [Json.Field.nat, Json.Field.string]

/-- The front of a line that ends before the name is no program. -/
theorem scanProgram_short {ch : DvbChannel} {line : CStr} (front : line <+: programHead ch) :
    scanProgram line = none := by
  obtain ⟨behind, whole⟩ := front
  cases scanned : scanProgram line with
  | none => rfl
  | some entry =>
      obtain ⟨program, major, minor, rest, numbers, named, -⟩ := scanProgram_eq_some_iff.mp scanned
      have begun : rest ≠ [] := by
        rintro rfl
        exact named rfl
      have head := scanNumbers_programHead ch []
      rw [List.append_nil, ← whole, scanNumbers_append numbers begun behind] at head
      have nothing : rest ++ behind = [] := congrArg Prod.snd (Option.some.inj head)
      exact absurd (List.append_eq_nil_iff.mp nothing).1 begun

theorem ascii_decimal {n : Nat} {byte : Char} (member : byte ∈ decimal n) : byte.toNat < 0x80 := by
  have digit := isDigit_decimal member
  simp only [Char.isDigit, ge_iff_le, Bool.and_eq_true, decide_eq_true_eq] at digit
  exact Nat.lt_of_le_of_lt digit.2 (by decide)

theorem ascii_programHead (ch : DvbChannel) : ∀ byte ∈ programHead ch, byte.toNat < 0x80 := by
  intro byte member
  simp only [programHead, decimalUnsigned, List.mem_append, List.mem_cons, List.not_mem_nil,
    or_false] at member
  rcases member with digit | rfl | rfl | digit | rfl | digit | rfl
  · exact ascii_decimal digit
  · decide
  · decide
  · exact ascii_decimal digit
  · decide
  · exact ascii_decimal digit
  · decide

theorem ascii_isSpace {byte : Char} (space : isSpace byte = true) : byte.toNat < 0x80 := by
  simp only [isSpace, List.contains_eq_mem, decide_eq_true_eq, List.mem_cons, List.not_mem_nil,
    or_false] at space
  rcases space with rfl | rfl | rfl | rfl | rfl | rfl <;> decide

/-- A text behind ASCII is in UTF-8 if and only if it is with the ASCII. -/
theorem utf8_ascii_append {front behind : CStr} (ascii : ∀ byte ∈ front, byte.toNat < 0x80) :
    Json.Utf8 (front ++ behind) ↔ Json.Utf8 behind := by
  induction front with
  | nil => exact Iff.rfl
  | cons byte front ih =>
      obtain ⟨first, others⟩ := List.forall_mem_cons.mp ascii
      have split := @Json.utf8_split [] (front ++ behind) byte first
      rw [List.cons_append]
      exact split.trans ((and_iff_right .nil).trans (ih others))

/-- What the web interface makes of a line: the program is in UTF-8 if and only
if the line is, and its object is not much longer. -/
structure LineShown (line : CStr) : Prop where
  utf8 : Json.Utf8 line ↔ ∀ entry ∈ scanProgram line, Json.Utf8 entry.name
  length : ∀ entry ∈ scanProgram line, (Json.object (programFields entry)).length < 6 * (line.length + 1)

theorem lineShown_of_none {line : CStr} (nothing : scanProgram line = none)
    (ascii : ∀ byte ∈ line, byte.toNat < 0x80) : LineShown line := by
  constructor
  · rw [nothing]
    exact iff_of_true (Json.utf8_of_ascii ascii) fun _ member => nomatch member
  · rw [nothing]
    exact fun _ member => nomatch member

/-- The object of a program whose line has been read. -/
theorem length_programObject {ch : DvbChannel} {entry : StreamProgram} {name : CStr}
    (program : entry.program = ch.programNumber.toNat)
    (major : entry.major = (UInt32.ofInt ch.major).toNat)
    (minor : entry.minor = (UInt32.ofInt ch.minor).toNat)
    (cut : entry.name.length ≤ name.length) :
    (Json.object (programFields entry)).length < 6 * ((programHead ch ++ name).length + 1) := by
  have again (i : Int) : UInt32.ofInt ((UInt32.ofInt i).toNat : Int) = UInt32.ofInt i := by
    apply UInt32.toNat_inj.mp
    rw [toNat_ofInt ⟨Int.natCast_nonneg _, ?_⟩, Int.toNat_natCast]
    have bound := (UInt32.ofInt i).toNat_lt
    omega
  have positive (n : Nat) : 0 < (decimal n).length := List.length_pos_iff.mpr (decimal_ne_nil n)
  have first := positive ch.programNumber.toNat
  have second := positive (UInt32.ofInt ch.major).toNat
  have third := positive (UInt32.ofInt ch.minor).toNat
  have escaped := Json.length_escapeText entry.name
  have keys : "program".toList.length = 7 ∧ "major".toList.length = 5 ∧
      "minor".toList.length = 5 ∧ "name".toList.length = 4 := by decide
  obtain ⟨key1, key2, key3, key4⟩ := keys
  apply Nat.lt_of_le_of_lt (Json.length_object _)
  simp only [programFields, program, major, minor, again, Json.Field.nat, Json.Field.string,
    programHead, decimalUnsigned, List.map_cons, List.map_nil, List.sum_cons, List.sum_nil,
    List.length_cons, List.length_append, List.length_nil, key1, key2, key3, key4]
  omega

/-- The front of the line of a channel that is stored. -/
theorem lineShown_programLine {ch : DvbChannel} (storable : StorableChannel ch) {line : CStr}
    (front : line <+: programLine ch) : LineShown line := by
  rw [programLine_eq] at front
  rcases List.prefix_or_prefix_of_prefix front (List.prefix_append _ _) with early | late
  · apply lineShown_of_none (scanProgram_short early)
    exact fun byte member => ascii_programHead ch byte (early.subset member)
  · obtain ⟨name, rfl⟩ := late
    rw [List.prefix_append_right_inj] at front
    have clean : scanBlank name <:+ name := List.dropWhile_suffix _
    have oneLine : '\n' ∉ scanBlank name :=
      fun member => storable.oneLine (front.subset (clean.subset member))
    have short : (scanBlank name).length ≤ 63 := by
      have bound := storable.short
      have inside := clean.length_le
      have cut := front.length_le
      omega
    have read : ((scanBlank name).takeWhile (· ≠ '\n')).take 63 = scanBlank name := by
      rw [takeWhile_oneLine oneLine, List.take_of_length_le short]
    have numbers := scanNumbers_programHead ch name
    by_cases blank : scanBlank name = []
    · apply lineShown_of_none
      · rw [scanProgram, numbers, blank]
        rfl
      · rw [List.forall_mem_append]
        refine ⟨ascii_programHead ch, fun byte member => ?_⟩
        exact ascii_isSpace (List.dropWhile_eq_nil_iff.mp blank byte member)
    · have scanned : scanProgram (programHead ch ++ name) =
          some ⟨ch.programNumber.toNat, (UInt32.ofInt ch.major).toNat,
            (UInt32.ofInt ch.minor).toNat, scanBlank name⟩ := by
        apply scanProgram_eq_some_iff.mpr
        exact ⟨_, _, _, _, numbers, by rwa [read], by rw [read]⟩
      have blanks : ∀ byte ∈ name.takeWhile isSpace, byte.toNat < 0x80 :=
        fun byte member => ascii_isSpace (List.mem_takeWhile_imp member)
      have same : Json.Utf8 name ↔ Json.Utf8 (scanBlank name) := by
        conv_lhs => rw [← List.takeWhile_append_dropWhile (p := isSpace) (l := name)]
        exact utf8_ascii_append blanks
      constructor
      · rw [scanned, utf8_ascii_append (ascii_programHead ch), same]
        simp
      · rw [scanned]
        intro entry member
        cases member
        exact length_programObject rfl rfl rfl clean.length_le

theorem lineShown_tsidLine {tsid : UInt16} {line : CStr} (front : line <+: tsidLine tsid) :
    LineShown line := by
  apply lineShown_of_none
  · rw [List.prefix_iff_eq_take.mp front]
    exact scanProgram_tsid tsid _
  · intro byte member
    have digit : ∀ digit < 16, (upperDigit digit).toNat < 0x80 := by decide
    rcases List.mem_append.mp (front.subset member) with key | number
    · have keys : ∀ byte ∈ "tsid=0x".toList, byte.toNat < 0x80 :=
        List.forall_iff_forall_mem.mp (by decide)
      exact keys byte key
    · have bound := tsid.toNat_lt
      simp only [upperHex4, List.mem_cons, List.not_mem_nil, or_false] at number
      rcases number with rfl | rfl | rfl | rfl
      · exact digit _ (by omega)
      · exact digit _ (by omega)
      · exact digit _ (by omega)
      · exact digit _ (by omega)

theorem storable_onFreq {db : ChannelDb} (stored : StoredDb db) (freq : UInt32) :
    ∀ ch ∈ db.onFreq freq, StorableChannel ch :=
  fun ch member => stored.storable ch (List.mem_of_mem_filter member)

theorem lineShown_streaminfoLines {db : ChannelDb} (stored : StoredDb db) (freq : UInt32)
    (room : Nat) : ∀ line ∈ cutLines room (streaminfoLines db freq), LineShown line := by
  intro line member
  obtain ⟨whole, inside, front⟩ := front_of_mem_cutLines member
  have storable := storable_onFreq stored freq
  unfold streaminfoLines at inside
  split at inside
  · cases inside
  · rename_i first rest shown
    rcases List.mem_cons.mp inside with rfl | program
    · exact lineShown_tsidLine front
    · obtain ⟨ch, among, rfl⟩ := List.mem_map.mp program
      rw [← shown] at among
      exact lineShown_programLine (storable ch (List.mem_of_mem_take among)) front

/-- A text of lines is in UTF-8, as far as it is left, if and only if the lines are. -/
theorem utf8_cut (lines : List CStr) (room : Nat) :
    Json.Utf8 ((lines.flatMap fun line => line ++ ['\n']).take room) ↔
      ∀ line ∈ cutLines room lines, Json.Utf8 line := by
  induction lines generalizing room with
  | nil =>
      rw [List.flatMap_nil, List.take_nil]
      exact iff_of_true .nil fun _ member => absurd member List.not_mem_nil
  | cons line lines ih =>
      rw [List.flatMap_cons, List.append_assoc, List.singleton_append, cutLines]
      by_cases cut : room ≤ line.length
      · rw [if_pos cut, List.take_append_of_le_length cut]
        simp
      · obtain ⟨left, room_eq⟩ : ∃ left, room - line.length = left + 1 :=
          ⟨room - line.length - 1, by omega⟩
        have whole : line.take room = line := List.take_of_length_le (by omega)
        have newline : '\n'.toNat < 0x80 := by decide
        rw [if_neg cut, List.take_append, whole, room_eq, List.take_succ_cons,
          Json.utf8_split newline, ih, List.forall_mem_cons, Nat.add_sub_cancel]

theorem sum_objects {lines : List CStr} (shown : ∀ line ∈ lines, LineShown line) :
    ((lines.filterMap scanProgram).map fun entry => (Json.object (programFields entry)).length + 1).sum ≤
      6 * linesLength lines := by
  induction lines with
  | nil => exact Nat.zero_le _
  | cons line lines ih =>
      obtain ⟨first, others⟩ := List.forall_mem_cons.mp shown
      have rest := ih others
      rw [linesLength, List.map_cons, List.sum_cons]
      change _ ≤ 6 * (line.length + 1 + linesLength lines)
      cases scanned : scanProgram line with
      | none =>
          rw [List.filterMap_cons_none scanned]
          omega
      | some entry =>
          have object := first.length entry scanned
          rw [List.filterMap_cons_some scanned, List.map_cons, List.sum_cons]
          omega

/-- The list of programs is not too long, and all names are in UTF-8 if and
only if the reply is. -/
theorem webPrograms_spec {db : ChannelDb} (stored : StoredDb db) (freq : UInt32) :
    (Json.Utf8 (truncate replySize (streaminfoReply db freq)) ↔
      ∀ entry ∈ webPrograms db freq, Json.Utf8 entry.name) ∧
    ((webPrograms db freq).map fun entry => (Json.object (programFields entry)).length + 1).sum ≤
      6 * replySize := by
  by_cases nothing : freq = 0 ∨ db.onFreq freq = []
  · obtain ⟨reply, none_⟩ := webPrograms_none nothing
    rw [reply, none_]
    refine ⟨iff_of_true (Json.utf8_of_ascii (List.forall_iff_forall_mem.mp (by decide))) ?_, Nat.zero_le _⟩
    exact fun _ member => absurd member List.not_mem_nil
  · obtain ⟨tuned, known⟩ := not_or.mp nothing
    have oneLine : ∀ ch ∈ db.onFreq freq, '\n' ∉ ch.shortName :=
      fun ch member => (storable_onFreq stored freq ch member).oneLine
    have shown := lineShown_streaminfoLines stored freq (replySize - 1)
    rw [webPrograms_eq tuned known oneLine, streaminfoReply_eq tuned known, truncate,
      List.take_take, Nat.min_self, utf8_cut]
    constructor
    · simp only [List.mem_filterMap]
      constructor
      · rintro lines entry ⟨line, member, scanned⟩
        exact (shown line member).utf8.mp (lines line member) entry scanned
      · intro names line member
        apply (shown line member).utf8.mpr
        exact fun entry scanned => names entry ⟨line, member, scanned⟩
    · have sum := sum_objects shown
      have room := linesLength_cutLines (replySize - 1) (streaminfoLines db freq)
      have size : replySize - 1 + 1 = replySize := rfl
      omega

end HdhrEmu
