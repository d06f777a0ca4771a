import HdhrEmu.PushStart
import Mathlib.Data.List.Sort

/-!
# The filter that is reported

Without an explicit filter, `GET /tunerN/filter` works out on its own what a
stream of the current selection would open.  It looks for the program on the
frequency that is tuned and takes the resolved channel only if it is not there;
a push starts from the channel and looks for the program second.
-/

namespace HdhrEmu

/-- The in-place removal of repetitions in a sorted array. -/
def dropRepeats : List UInt16 → List UInt16
  | [] => []
  | pid :: rest => if rest.head? = some pid then dropRepeats rest else pid :: dropRepeats rest

/-- Runs of consecutive PIDs become ranges. -/
def pidRuns : List UInt16 → List PidRange
  | [] => []
  | pid :: rest =>
      match pidRuns rest with
      | [] => [⟨pid, pid⟩]
      | range :: ranges =>
          if range.start.toNat = pid.toNat + 1 then ⟨pid, range.last⟩ :: ranges
          else ⟨pid, pid⟩ :: range :: ranges

/-- The ranges that `pid_filter_format` writes. -/
def pidFilterRanges (pids : List UInt16) : List PidRange :=
  pidRuns (dropRepeats (pids.insertionSort (· ≤ ·)))

/-- `%04x` of 16 bits. -/
def hex4 (pid : UInt16) : CStr :=
  [Nat.digitChar (pid.toNat / 4096), Nat.digitChar (pid.toNat / 256 % 16),
    Nat.digitChar (pid.toNat / 16 % 16), Nat.digitChar (pid.toNat % 16)]

def PidRange.text (range : PidRange) : CStr :=
  if range.start = range.last then "0x".toList ++ hex4 range.start
  else "0x".toList ++ hex4 range.start ++ '-' :: ("0x".toList ++ hex4 range.last)

def PidRange.Covers (range : PidRange) (pid : UInt16) : Prop :=
  range.start ≤ pid ∧ pid ≤ range.last

theorem mem_dropRepeats (pids : List UInt16) (pid : UInt16) :
    pid ∈ dropRepeats pids ↔ pid ∈ pids := by
  induction pids with
  | nil => exact Iff.rfl
  | cons first rest ih =>
      rw [dropRepeats]
      split
      · rename_i again
        rw [ih, List.mem_cons]
        constructor
        · exact Or.inr
        · rintro (rfl | member)
          · exact List.mem_of_mem_head? again
          · exact member
      · rw [List.mem_cons, List.mem_cons, ih]

theorem covers_singleton (first pid : UInt16) :
    PidRange.Covers ⟨first, first⟩ pid ↔ pid = first := by
  constructor
  · rintro ⟨low, high⟩
    exact UInt16.le_antisymm high low
  · rintro rfl
    exact ⟨UInt16.le_refl _, UInt16.le_refl _⟩

/-- A run that is continued to the left. -/
theorem covers_extend {range : PidRange} {first : UInt16}
    (next : range.start.toNat = first.toNat + 1) (ordered : range.start ≤ range.last)
    (pid : UInt16) :
    PidRange.Covers ⟨first, range.last⟩ pid ↔ pid = first ∨ range.Covers pid := by
  simp only [PidRange.Covers, UInt16.le_iff_toNat_le, ← UInt16.toNat_inj] at *
  omega

/-- The ranges are well formed and cover the PIDs. -/
theorem pidRuns_covers (pids : List UInt16) :
    (∀ range ∈ pidRuns pids, range.start ≤ range.last) ∧
      ∀ pid, (∃ range ∈ pidRuns pids, range.Covers pid) ↔ pid ∈ pids := by
  induction pids with
  | nil => simp [pidRuns]
  | cons first rest ih =>
      obtain ⟨ordered, covers⟩ := ih
      rw [pidRuns]
      split
      · rename_i none_
        rw [none_] at covers
        refine ⟨by simp, fun pid => ?_⟩
        have nothing := covers pid
        simp only [List.not_mem_nil, false_and, exists_false, false_iff] at nothing
        simp [covers_singleton, nothing]
      · rename_i range ranges runs
        rw [runs] at ordered covers
        have head := ordered range List.mem_cons_self
        by_cases joins : range.start.toNat = first.toNat + 1
        · rw [if_pos joins]
          refine ⟨?_, fun pid => ?_⟩
          · rw [List.forall_mem_cons] at ordered ⊢
            refine ⟨?_, ordered.2⟩
            simp only [UInt16.le_iff_toNat_le] at *
            omega
          · have rest_covers := covers pid
            rw [List.exists_mem_cons_iff] at rest_covers ⊢
            rw [covers_extend joins head, List.mem_cons, or_assoc, rest_covers]
        · rw [if_neg joins]
          refine ⟨?_, fun pid => ?_⟩
          · rw [List.forall_mem_cons]
            exact ⟨UInt16.le_refl _, ordered⟩
          · rw [List.exists_mem_cons_iff, covers_singleton, covers pid, List.mem_cons]

/-- The ranges that are written cover exactly the PIDs that were given. -/
theorem pidFilterRanges_covers (pids : List UInt16) (pid : UInt16) :
    (∃ range ∈ pidFilterRanges pids, range.Covers pid) ↔ pid ∈ pids := by
  rw [pidFilterRanges, (pidRuns_covers _).2, mem_dropRepeats, List.mem_insertionSort]

theorem hexDigit?_digitChar {digit : Nat} (bound : digit < 16) :
    hexDigit? (Nat.digitChar digit) = some digit := by
  have all : ∀ digit < 16, hexDigit? (Nat.digitChar digit) = some digit := by decide
  exact all digit bound

/-- A digit is none of the characters with a meaning of their own. -/
theorem digitChar_plain {digit : Nat} (bound : digit < 16) :
    Nat.digitChar digit ≠ '-' ∧ Nat.digitChar digit ≠ '+' ∧ Nat.digitChar digit ≠ 'x' ∧
      Nat.digitChar digit ≠ 'X' ∧ Nat.digitChar digit ≠ ' ' := by
  have all : ∀ digit < 16, Nat.digitChar digit ≠ '-' ∧ Nat.digitChar digit ≠ '+' ∧
      Nat.digitChar digit ≠ 'x' ∧ Nat.digitChar digit ≠ 'X' ∧ Nat.digitChar digit ≠ ' ' := by
    decide
  exact all digit bound

theorem hexDigits_hex4 (pid : UInt16) : hexDigits (hex4 pid) = some pid.toNat := by
  have bound := pid.toNat_lt
  have digit3 := hexDigit?_digitChar (show pid.toNat / 4096 < 16 by omega)
  have digit2 := hexDigit?_digitChar (show pid.toNat / 256 % 16 < 16 by omega)
  have digit1 := hexDigit?_digitChar (show pid.toNat / 16 % 16 < 16 by omega)
  have digit0 := hexDigit?_digitChar (show pid.toNat % 16 < 16 by omega)
  simp only [hexDigits, hex4, List.takeWhile, digit3, digit2, digit1, digit0, Option.isSome_some,
    List.foldl, Option.getD_some]
  congr 1
  omega

theorem scanPid_hex4 (pid : UInt16) :
    scanPid ("0x".toList ++ hex4 pid) = some (UInt32.ofNat pid.toNat) := by
  have bound := pid.toNat_lt
  have first := digitChar_plain (show pid.toNat / 4096 < 16 by omega)
  have second := digitChar_plain (show pid.toNat / 256 % 16 < 16 by omega)
  have digits := hexDigits_hex4 pid
  have prefix_ : "0x".toList.isPrefixOf? ("0x".toList ++ hex4 pid) = some (hex4 pid) := rfl
  have value : unsignedOf false pid.toNat = UInt32.ofNat pid.toNat := by
    rw [unsignedOf, if_neg (by omega), if_neg (by decide)]
  have magnitude : scanMagnitude (hex4 pid) = some pid.toNat := by
    unfold scanMagnitude
    split
    · simp_all [hex4]
    · simp_all [hex4]
    · exact digits
  simp only [scanPid, prefix_, scanHex]
  split
  · simp_all [hex4]
  · simp_all [hex4]
  · rw [magnitude, Option.map_some, value]

/-- One entry of a filter, as it is read by a client. -/
def readPidRange (token : CStr) : Option PidRange :=
  match CString.splitAt? '-' token with
  | some (first, second) =>
      (scanPid first).bind fun start => (scanPid second).map fun last =>
        ⟨start.toUInt16, last.toUInt16⟩
  | none => (scanPid token).map fun start => ⟨start.toUInt16, start.toUInt16⟩

theorem not_mem_hex4 (pid : UInt16) : '-' ∉ "0x".toList ++ hex4 pid ∧
    ' ' ∉ "0x".toList ++ hex4 pid := by
  have bound := pid.toNat_lt
  have digit3 := digitChar_plain (show pid.toNat / 4096 < 16 by omega)
  have digit2 := digitChar_plain (show pid.toNat / 256 % 16 < 16 by omega)
  have digit1 := digitChar_plain (show pid.toNat / 16 % 16 < 16 by omega)
  have digit0 := digitChar_plain (show pid.toNat % 16 < 16 by omega)
  simp only [hex4, String.reduceToList, List.cons_append, List.nil_append, List.mem_cons,
    List.not_mem_nil, or_false, not_or]
  exact ⟨⟨by decide, by decide, digit3.1.symm, digit2.1.symm, digit1.1.symm, digit0.1.symm⟩,
    by decide, by decide, digit3.2.2.2.2.symm, digit2.2.2.2.2.symm, digit1.2.2.2.2.symm,
    digit0.2.2.2.2.symm⟩

theorem toUInt16_ofNat (pid : UInt16) : (UInt32.ofNat pid.toNat).toUInt16 = pid := by
  apply UInt16.toNat_inj.mp
  have bound := pid.toNat_lt
  rw [UInt32.toNat_toUInt16, UInt32.toNat_ofNat']
  omega

theorem readPidRange_text (range : PidRange) : readPidRange range.text = some range := by
  unfold PidRange.text readPidRange
  by_cases single : range.start = range.last
  · rw [if_pos single, CString.splitAt?_eq_none (not_mem_hex4 _).1]
    simp only [scanPid_hex4, Option.map_some, toUInt16_ofNat]
    exact congrArg (fun last => some (PidRange.mk range.start last)) single
  · rw [if_neg single, CString.splitAt?_append (not_mem_hex4 _).1]
    simp only [scanPid_hex4, Option.bind_some, Option.map_some, toUInt16_ofNat]

theorem space_not_mem_text (range : PidRange) : ' ' ∉ range.text := by
  unfold PidRange.text
  split
  · exact (not_mem_hex4 _).2
  · rw [List.mem_append, List.mem_cons, not_or, not_or]
    exact ⟨(not_mem_hex4 _).2, by decide, (not_mem_hex4 _).2⟩

/-- The PIDs of a channel's program that are set. -/
def DvbChannel.programPids (channel : DvbChannel) : List UInt16 :=
  [channel.pmtPid, channel.pcrPid, channel.videoPid, channel.audioPid].filter (· ≠ 0)

/-- What `compute_auto_filter` writes. -/
inductive AutoFilter
  | fullMux
  | noPids
  | listed (ranges : List PidRange)
  deriving DecidableEq, Repr

def fullMuxText : CStr :=
  "0x0000-0x1fff".toList

def AutoFilter.text : AutoFilter → CStr
  | .fullMux => fullMuxText
  | .noPids => noneText
  | .listed ranges => " ".toList.intercalate (ranges.map PidRange.text)

/-- The first channel on a frequency with the number of a program, cut to 16 bits. -/
def ChannelDb.numbered (db : ChannelDb) (freq : UInt32) (program : Int) : Option DvbChannel :=
  (db.onFreq freq).find? fun sibling => sibling.programNumber == UInt16.ofInt program

/-- The channel whose PIDs `compute_auto_filter` reports, or `none` for the
full range. -/
def autoFilterTarget (t : Tuner) (db : ChannelDb) : Option DvbChannel :=
  if t.program = 0 ∨ t.tunedFrequencyHz = 0 then none
  else
    match db.numbered t.tunedFrequencyHz t.program with
    | some sibling => some sibling
    | none => if t.vchResolved then db.find? ⟨t.vchMajor, t.vchMinor⟩ else none

def computeAutoFilter (t : Tuner) (db : ChannelDb) : AutoFilter :=
  match autoFilterTarget t db with
  | none => .fullMux
  | some target =>
      match target.programPids with
      | [] => .noPids
      | pids => .listed (pidFilterRanges pids)

/-- `GET /tunerN/filter`. -/
def filterReply (t : Tuner) (db : ChannelDb) : CStr :=
  if t.filterOverride = [] then (computeAutoFilter t db).text else t.filterOverride

/-- A reply, as it is read by a client. -/
def readFilter (text : CStr) : Option AutoFilter :=
  if text = fullMuxText then some .fullMux
  else if text = noneText then some .noPids
  else ((text.splitOn ' ').mapM readPidRange).map .listed

/-- The PIDs a filter stands for are those that were opened: the full mux is the
wildcard, and the PAT is opened but not listed. -/
def AutoFilter.Describes (opened : List UInt16) : AutoFilter → Prop
  | .fullMux => opened = [fullMuxPid]
  | .noPids => ∀ pid, pid ∈ opened ↔ pid = 0
  | .listed ranges =>
      0 ∈ opened ∧ ∀ pid, (∃ range ∈ ranges, range.Covers pid) ↔ pid ∈ opened ∧ pid ≠ 0

/-- What a reply says is what was opened. -/
def ReplyDescribes (reply : CStr) (opened : List UInt16) : Prop :=
  ∃ filter, readFilter reply = some filter ∧ filter.Describes opened

/-- Two channels whose programs have the same PIDs. -/
def SamePids (first second : DvbChannel) : Prop :=
  ∀ pid, pid ∈ first.programPids ↔ pid ∈ second.programPids

/-- When the report is right. -/
def AutoFilterAccurate (t : Tuner) (db : ChannelDb) : Prop :=
  t.program ≠ 0 →
    match t.pushSource with
    | .resolved key =>
        let channel := db.deref key
        t.tunedFrequencyHz ≠ 0 ∧
          SamePids ((db.numbered t.tunedFrequencyHz t.program).getD channel)
            (if 0 < t.program ∧ t.program ≠ channel.programNumber.toNat then
              (db.numbered channel.frequencyHz t.program).getD channel
            else channel)
    | .synthetic tuning => db.numbered tuning.freq t.program = none
    | .siblings freq => (db.numbered freq t.program).isSome
    | .nothing => True

theorem mapM_readPidRange (ranges : List PidRange) :
    (ranges.map PidRange.text).mapM readPidRange = some ranges := by
  induction ranges with
  | nil => rfl
  | cons range ranges ih =>
      rw [List.map_cons, List.mapM_cons, readPidRange_text, ih]
      rfl

theorem splitOn_listed {ranges : List PidRange} (some_ : ranges ≠ []) :
    (AutoFilter.listed ranges).text.splitOn ' ' = ranges.map PidRange.text := by
  apply List.splitOn_intercalate
  · intro text member
    obtain ⟨range, -, rfl⟩ := List.mem_map.mp member
    exact space_not_mem_text range
  · simpa using some_

/-- A list of PIDs without the PAT reads back as it was written. -/
theorem readFilter_listed {pids : List UInt16} (some_ : pids ≠ []) (noPat : 0 ∉ pids) :
    readFilter (AutoFilter.listed (pidFilterRanges pids)).text =
      some (.listed (pidFilterRanges pids)) := by
  have ranges_ne : pidFilterRanges pids ≠ [] := by
    intro empty
    obtain ⟨pid, member⟩ := List.exists_mem_of_ne_nil pids some_
    obtain ⟨range, listed, -⟩ := (pidFilterRanges_covers pids pid).mpr member
    rw [empty] at listed
    exact List.not_mem_nil listed
  have split := splitOn_listed ranges_ne
  have read := mapM_readPidRange (pidFilterRanges pids)
  rw [← split] at read
  have notFull : (AutoFilter.listed (pidFilterRanges pids)).text ≠ fullMuxText := by
    intro full
    have whole : (fullMuxText.splitOn ' ').mapM readPidRange = some [⟨0, 0x1fff⟩] := by decide
    rw [full, whole] at read
    have covered := (pidFilterRanges_covers pids 0).mp
    rw [← Option.some.inj read] at covered
    exact noPat (covered ⟨_, List.mem_singleton_self _, UInt16.le_refl _, by decide⟩)
  have notNone : (AutoFilter.listed (pidFilterRanges pids)).text ≠ noneText := by
    intro none_
    have whole : (noneText.splitOn ' ').mapM readPidRange = none := by decide
    rw [none_, whole] at read
    cases read
  rw [readFilter, if_neg notFull, if_neg notNone, read]
  rfl

theorem readFilter_fullMux : readFilter AutoFilter.fullMux.text = some .fullMux :=
  rfl

theorem readFilter_noPids : readFilter AutoFilter.noPids.text = some .noPids := by
  decide

theorem mem_addPid {pids more : List UInt16} {added : UInt16}
    (opens : addPid pids added = some more) (pid : UInt16) :
    pid ∈ more ↔ pid ∈ pids ∨ pid = added := by
  unfold addPid at opens
  split at opens
  · rename_i present
    cases opens
    constructor
    · exact Or.inl
    · rintro (old | rfl)
      · exact old
      · exact present
  · split at opens
    · cases opens
    · cases opens
      rw [List.mem_append, List.mem_singleton]

theorem mem_foldlM_addPidIfNew {wanted pids more : List UInt16}
    (opens : wanted.foldlM addPidIfNew pids = some more) (pid : UInt16) :
    pid ∈ more ↔ pid ∈ pids ∨ pid ∈ wanted.filter (· ≠ 0) := by
  induction wanted generalizing pids with
  | nil =>
      cases opens
      simp
  | cons first wanted ih =>
      rw [List.foldlM_cons] at opens
      obtain ⟨next, added, rest⟩ := Option.bind_eq_some_iff.mp opens
      rw [ih rest]
      unfold addPidIfNew at added
      by_cases zero : first = 0
      · rw [if_pos zero] at added
        cases added
        simp [zero]
      · rw [if_neg zero] at added
        rw [mem_addPid added, List.filter_cons_of_pos (by simpa using zero), List.mem_cons,
          or_assoc]

/-- The channel whose PIDs a stream opens, or `none` for the full mux. -/
def streamTarget (db : ChannelDb) (channel : DvbChannel) (program : Int) : Option DvbChannel :=
  if program = 0 then none else some (programTarget db channel program)

theorem opened_of_target {db : ChannelDb} {channel : DvbChannel} {program : Int}
    {opened : List UInt16} (opens : dvbStreamPids db channel program [] = some opened) :
    match streamTarget db channel program with
    | none => opened = [fullMuxPid]
    | some target => ∀ pid, pid ∈ opened ↔ pid = 0 ∨ pid ∈ target.programPids := by
  have noFilter : explicitFilter? [] = none := by decide
  unfold streamTarget
  by_cases zero : program = 0
  · rw [if_pos zero]
    rw [zero, dvbStreamPids_full_mux noFilter] at opens
    exact (Option.some.inj opens).symm
  · rw [if_neg zero]
    simp only [dvbStreamPids, noFilter, zero, if_false] at opens
    intro pid
    rw [mem_foldlM_addPidIfNew opens, List.nil_append, List.mem_singleton]
    rfl

/-- The report and the stream choose the same PIDs. -/
def TargetsAgree : Option DvbChannel → Option DvbChannel → Prop
  | none, none => True
  | some reported, some streamed => SamePids reported streamed
  | _, _ => False

theorem zero_not_mem_programPids (channel : DvbChannel) : 0 ∉ channel.programPids := by
  simp [DvbChannel.programPids]

/-- What the report says of its target is what was opened for the target of
the stream. -/
theorem replyDescribes_iff {t : Tuner} {db : ChannelDb} {streamed : Option DvbChannel}
    {opened : List UInt16}
    (opens : match streamed with
      | none => opened = [fullMuxPid]
      | some target => ∀ pid, pid ∈ opened ↔ pid = 0 ∨ pid ∈ target.programPids) :
    ReplyDescribes (computeAutoFilter t db).text opened ↔
      TargetsAgree (autoFilterTarget t db) streamed := by
  have zero_ne_full : (0 : UInt16) ≠ fullMuxPid := by decide
  unfold ReplyDescribes computeAutoFilter
  cases autoFilterTarget t db with
  | none =>
      simp only [readFilter_fullMux, Option.some.injEq, exists_eq_left', AutoFilter.Describes]
      cases streamed with
      | none => exact iff_of_true opens trivial
      | some target =>
          refine iff_of_false (fun full => ?_) (fun agree => agree)
          have pat := (opens 0).mpr (.inl rfl)
          rw [full, List.mem_singleton] at pat
          exact zero_ne_full pat
  | some reported =>
      have noPat := zero_not_mem_programPids reported
      dsimp only
      split
      · rename_i nothing
        simp only [readFilter_noPids, Option.some.injEq, exists_eq_left', AutoFilter.Describes]
        cases streamed with
        | none =>
            refine iff_of_false (fun patOnly => ?_) (fun agree => agree)
            have pat := (patOnly 0).mpr rfl
            rw [opens, List.mem_singleton] at pat
            exact zero_ne_full pat
        | some target =>
            simp only [TargetsAgree, SamePids, nothing, List.not_mem_nil, false_iff]
            have noZero := zero_not_mem_programPids target
            constructor
            · intro patOnly pid member
              have zero := (patOnly pid).mp ((opens pid).mpr (.inr member))
              exact noZero (zero ▸ member)
            · intro none_ pid
              rw [opens, or_iff_left (none_ pid)]
      · rename_i some_
        rw [readFilter_listed some_ noPat]
        simp only [Option.some.injEq, exists_eq_left', AutoFilter.Describes,
          pidFilterRanges_covers]
        cases streamed with
        | none =>
            refine iff_of_false (fun listed => ?_) (fun agree => agree)
            have pat := listed.1
            rw [opens, List.mem_singleton] at pat
            exact zero_ne_full pat
        | some target =>
            have noZero := zero_not_mem_programPids target
            have pat := (opens 0).mpr (.inl rfl)
            simp only [TargetsAgree, SamePids, pat, true_and]
            refine forall_congr' fun pid => ?_
            rw [opens]
            constructor
            · intro same
              rw [same]
              constructor
              · rintro ⟨zero | member, nonzero⟩
                · exact absurd zero nonzero
                · exact member
              · intro member
                exact ⟨.inr member, fun zero => noZero (zero ▸ member)⟩
            · intro same
              rw [same]
              constructor
              · intro member
                exact ⟨.inr member, fun zero => noZero (zero ▸ member)⟩
              · rintro ⟨zero | member, nonzero⟩
                · exact absurd zero nonzero
                · exact member

theorem samePids_refl (channel : DvbChannel) : SamePids channel channel :=
  fun _ => Iff.rfl

/-- A program that is positive is cut to 16 bits in the same way on both sides. -/
theorem programTarget_eq (db : ChannelDb) (channel : DvbChannel) (program : Int) :
    programTarget db channel program =
      if 0 < program ∧ program ≠ channel.programNumber.toNat then
        (db.numbered channel.frequencyHz program).getD channel
      else channel := by
  unfold programTarget ChannelDb.numbered
  by_cases other : 0 < program ∧ program ≠ channel.programNumber.toNat
  · have cut : UInt16.ofNat program.toNat = UInt16.ofInt program := by
      apply UInt16.toNat_inj.mp
      have nonneg : 0 < program := other.1
      rw [UInt16.ofInt, UInt16.toNat_ofNat', UInt16.toNat_ofNat']
      omega
    rw [if_pos other, if_pos other, cut]
  · rw [if_neg other, if_neg other]

/-- The first channel of a mux is found by its own program number. -/
theorem numbered_head {db : ChannelDb} {freq : UInt32} {program : Int} {channel : DvbChannel}
    (head : (db.onFreq freq).head? = some channel)
    (own : program = channel.programNumber.toNat) : db.numbered freq program = some channel := by
  have number : channel.programNumber = UInt16.ofInt program := by
    have bound := channel.programNumber.toNat_lt
    apply UInt16.toNat_inj.mp
    rw [own, UInt16.ofInt, UInt16.toNat_ofNat']
    omega
  obtain ⟨rest, channels⟩ := List.head?_eq_some_iff.mp head
  rw [ChannelDb.numbered, channels, List.find?_cons_of_pos]
  simp [number]

theorem pushSource_resolved {t : Tuner} {key : ChannelKey} (source : t.pushSource = .resolved key) :
    t.vchResolved = true ∧ key = ⟨t.vchMajor, t.vchMinor⟩ := by
  unfold Tuner.pushSource at source
  split_ifs at source with resolved
  cases source
  exact ⟨resolved, rfl⟩

theorem pushSource_synthetic {t : Tuner} {tuning : Tuning}
    (source : t.pushSource = .synthetic tuning) :
    t.vchResolved = false ∧ t.tunedFrequencyHz ≠ 0 ∧ tuning.freq = t.tunedFrequencyHz := by
  unfold Tuner.pushSource at source
  split_ifs at source with resolved synthetic
  cases source
  exact ⟨by simpa using resolved, synthetic.1, rfl⟩

theorem pushSource_siblings {t : Tuner} {freq : UInt32} (source : t.pushSource = .siblings freq) :
    t.vchResolved = false ∧ t.tunedFrequencyHz ≠ 0 ∧ 0 < t.program ∧
      freq = t.tunedFrequencyHz := by
  unfold Tuner.pushSource at source
  split_ifs at source with resolved synthetic tuned
  cases source
  refine ⟨by simpa using resolved, tuned, ?_, rfl⟩
  by_contra notPositive
  exact synthetic ⟨tuned, by omega⟩

/-- The report describes what a push that is accepted opens exactly in the
states `AutoFilterAccurate` describes. -/
theorem auto_filter_accurate_iff (t : Tuner) (db : ChannelDb) (channel : DvbChannel)
    (program : Int) (opened : List UInt16) (noOverride : t.filterOverride = [])
    (accepted : t.pushChannel db = some (channel, program))
    (opens : dvbStreamPids db channel program t.pushPidFilter = some opened) :
    ReplyDescribes (filterReply t db) opened ↔ AutoFilterAccurate t db := by
  have noFilter : t.pushPidFilter = [] := by
    rw [Tuner.pushPidFilter, noOverride]
    rfl
  rw [noFilter] at opens
  rw [filterReply, if_pos noOverride, replyDescribes_iff (opened_of_target opens)]
  unfold Tuner.pushChannel at accepted
  unfold AutoFilterAccurate autoFilterTarget streamTarget
  cases source : t.pushSource with
  | resolved key =>
      simp only [source] at accepted
      obtain ⟨_, found, paired⟩ := Option.map_eq_some_iff.mp accepted
      cases paired
      have deref : db.deref key = channel := by simp [ChannelDb.deref, found]
      have resolved := pushSource_resolved source
      rw [resolved.2] at found
      simp only [resolved.1, if_true, found, deref, programTarget_eq]
      by_cases zero : t.program = 0
      · simp [zero, TargetsAgree]
      · by_cases untuned : t.tunedFrequencyHz = 0
        · simp [zero, untuned, TargetsAgree]
        · cases numbered : db.numbered t.tunedFrequencyHz t.program with
          | none => simp [zero, untuned, TargetsAgree]
          | some sibling => simp [zero, untuned, TargetsAgree]
  | synthetic tuning =>
      simp only [source] at accepted
      split at accepted
      · cases accepted
        obtain ⟨unresolved, tuned, freq⟩ := pushSource_synthetic source
        rw [if_pos rfl]
        dsimp only
        rw [freq]
        by_cases zero : t.program = 0
        · simp [zero, TargetsAgree]
        · cases numbered : db.numbered t.tunedFrequencyHz t.program with
          | none => simp [zero, tuned, unresolved, TargetsAgree]
          | some sibling => simp [zero, tuned, TargetsAgree]
      · cases accepted
  | siblings freq =>
      simp only [source] at accepted
      obtain ⟨_, head, paired⟩ := Option.map_eq_some_iff.mp accepted
      cases paired
      obtain ⟨unresolved, tuned, positive, rfl⟩ := pushSource_siblings source
      have zero : t.program ≠ 0 := by omega
      have on : channel.frequencyHz = t.tunedFrequencyHz := by
        have member := List.mem_of_mem_head? head
        simpa using (List.mem_filter.mp member).2
      simp only [zero, tuned, or_self, if_false, unresolved, programTarget_eq, on, ne_eq,
        not_false_eq_true, forall_const]
      cases numbered : db.numbered t.tunedFrequencyHz t.program with
      | none => simp [TargetsAgree]
      | some sibling =>
          simp only [TargetsAgree, Option.getD_some, Option.isSome_some, iff_true]
          split
          · exact samePids_refl sibling
          · rename_i own
            have same : t.program = channel.programNumber.toNat := by
              by_contra other
              exact own ⟨positive, other⟩
            rw [numbered_head head same] at numbered
            cases numbered
            exact samePids_refl channel
  | nothing =>
      simp only [source] at accepted
      cases accepted

/-- A mux with one channel, of program 3. -/
def oneProgram : DvbChannel :=
  { DvbChannel.zero with
    major := 2, minor := 1, frequencyHz := 57000000, programNumber := 3, pmtPid := 0x30,
    pcrPid := 0x31, videoPid := 0x31, audioPid := 0x34 }

theorem auto_filter_accurate_iff_oneProgram :
    let t := { Tuner.init with tunedFrequencyHz := 57000000, program := 3 }
    let db := ChannelDb.empty.add oneProgram
    ReplyDescribes (filterReply t db) [0, 0x30, 0x31, 0x34] ↔ AutoFilterAccurate t db :=
  auto_filter_accurate_iff _ _ oneProgram 3 _ rfl (by decide) (by decide)

/-- A program that is not on the mux: the full mux is reported, and the PIDs of
another program are opened. -/
theorem unknown_program_misreported :
    let t := { Tuner.init with tunedFrequencyHz := 57000000, program := 5 }
    let db := ChannelDb.empty.add oneProgram
    t.pushChannel db = some (oneProgram, 5) ∧
      dvbStreamPids db oneProgram 5 t.pushPidFilter = some [0, 0x30, 0x31, 0x34] ∧
      ¬ ReplyDescribes (filterReply t db) [0, 0x30, 0x31, 0x34] := by
  refine ⟨by decide, by decide, ?_⟩
  rintro ⟨filter, read, describes⟩
  have full : readFilter (filterReply
      { Tuner.init with tunedFrequencyHz := 57000000, program := 5 }
      (ChannelDb.empty.add oneProgram)) = some .fullMux := by
    decide
  rw [full] at read
  cases read
  have wildcard : [0, 0x30, 0x31, 0x34] = [fullMuxPid] := describes
  revert wildcard
  decide

example : filterReply { Tuner.init with tunedFrequencyHz := 57000000, program := 3 }
    (ChannelDb.empty.add oneProgram) = "0x0030-0x0031 0x0034".toList := by
  decide

end HdhrEmu
