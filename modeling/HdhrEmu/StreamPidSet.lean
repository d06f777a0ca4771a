import HdhrEmu.StreamPids

/-!
# The set of PIDs that was asked for

No PID is opened twice and there is always a filter left for the next one.  The
set is the one that the filter, the program and the channel ask for, except
that a program number above 65535 is taken for another one.
-/

namespace HdhrEmu

open CString

/-- What opening the filters of `wanted` behind `pids` leads to. -/
structure Opened (pids wanted more : List UInt16) : Prop where
  nodup : more.Nodup
  length_le : more.length ≤ pids.length + wanted.length
  mem_iff : ∀ pid, pid ∈ more ↔ pid ∈ pids ∨ pid ∈ wanted ∧ pid ≠ 0

theorem addPidIfNew_opened {pids : List UInt16} (nodup : pids.Nodup)
    (room : pids.length < maxDemuxFds) (pid : UInt16) :
    ∃ more, addPidIfNew pids pid = some more ∧ Opened pids [pid] more := by
  rw [addPidIfNew, addPid]
  by_cases zero : pid = 0
  · refine ⟨pids, if_pos zero, nodup, Nat.le_succ _, fun other => ?_⟩
    rw [List.mem_singleton, zero]
    exact ⟨.inl, fun either => either.elim id fun both => absurd both.1 both.2⟩
  · rw [if_neg zero]
    by_cases there : pid ∈ pids
    · refine ⟨pids, if_pos there, nodup, Nat.le_succ _, fun other => ?_⟩
      rw [List.mem_singleton]
      exact ⟨.inl, fun either => either.elim id fun both => both.1 ▸ there⟩
    · rw [if_neg there, if_neg (Nat.not_le.mpr room)]
      refine ⟨pids ++ [pid], rfl, ?_, Nat.le_of_eq List.length_append, fun other => ?_⟩
      · rw [List.nodup_append]
        refine ⟨nodup, List.nodup_singleton pid, ?_⟩
        rintro other member _ added rfl
        exact there (List.mem_singleton.mp added ▸ member)
      · rw [List.mem_append, List.mem_singleton]
        exact or_congr_right ⟨fun same => ⟨same, same ▸ zero⟩, And.left⟩

/-- While there are enough filters, all that is wanted is opened. -/
theorem foldlM_addPidIfNew_opened {pids : List UInt16} (nodup : pids.Nodup) {wanted : List UInt16}
    (room : pids.length + wanted.length ≤ maxDemuxFds) :
    ∃ more, wanted.foldlM addPidIfNew pids = some more ∧ Opened pids wanted more := by
  induction wanted generalizing pids with
  | nil => exact ⟨pids, rfl, nodup, Nat.le_refl _, fun pid => by simp⟩
  | cons pid wanted ih =>
      rw [List.length_cons] at room
      obtain ⟨next, first, opened⟩ := addPidIfNew_opened nodup (by omega) pid
      have longer := opened.length_le
      rw [List.length_singleton] at longer
      obtain ⟨more, rest, later⟩ := ih opened.nodup (by omega)
      have total := later.length_le
      refine ⟨more, ?_, later.nodup, ?_, fun other => ?_⟩
      · rw [List.foldlM_cons, first]
        exact rest
      · rw [List.length_cons]
        omega
      · rw [later.mem_iff, opened.mem_iff, List.mem_singleton, List.mem_cons]
        tauto

/-- The PAT comes first, and there is room for five more. -/
theorem withPat_opened {wanted : List UInt16} (few : wanted.length ≤ maxDemuxFds - 1) :
    ∃ more, (addPid [] 0x0000 >>= fun pids => wanted.foldlM addPidIfNew pids) = some more ∧
      more.Nodup ∧ more.length ≤ maxDemuxFds ∧ ∀ pid, pid ∈ more ↔ pid = 0 ∨ pid ∈ wanted := by
  have room : [(0 : UInt16)].length + wanted.length ≤ maxDemuxFds := by
    have most : maxDemuxFds = 6 := rfl
    rw [List.length_singleton]
    omega
  obtain ⟨more, opens, opened⟩ := foldlM_addPidIfNew_opened (List.nodup_singleton 0) room
  refine ⟨more, opens, opened.nodup, Nat.le_trans opened.length_le room, fun pid => ?_⟩
  rw [opened.mem_iff, List.mem_singleton]
  tauto

theorem PidRange.mem_pids (range : PidRange) (pid : UInt16) :
    pid ∈ range.pids ↔ range.start ≤ pid ∧ pid ≤ range.last := by
  have startBound := range.start.toNat_lt
  have lastBound := range.last.toNat_lt
  rw [PidRange.pids, List.mem_map, UInt16.le_iff_toNat_le, UInt16.le_iff_toNat_le]
  constructor
  · rintro ⟨offset, inside, rfl⟩
    rw [List.mem_range, PidRange.span] at inside
    rw [UInt16.toNat_add, UInt16.toNat_ofNat']
    omega
  · rintro ⟨from_start, to_last⟩
    refine ⟨pid.toNat - range.start.toNat, ?_, ?_⟩
    · rw [List.mem_range, PidRange.span]
      omega
    · apply UInt16.toNat_inj.mp
      have pidBound := pid.toNat_lt
      rw [UInt16.toNat_add, UInt16.toNat_ofNat']
      omega

theorem length_flatMap_pids (ranges : List PidRange) :
    (ranges.flatMap PidRange.pids).length = pidFilterTotalCount ranges := by
  have lengths : ranges.map (List.length ∘ PidRange.pids) = ranges.map PidRange.span :=
    List.map_congr_left fun range _ => by
      rw [Function.comp_apply, PidRange.pids, List.length_map, List.length_range]
  rw [List.length_flatMap, pidFilterTotalCount, ← lengths]
  rfl

/-- The PIDs of a channel, as its fields have them. -/
def DvbChannel.fieldPids (channel : DvbChannel) : List UInt16 :=
  [channel.pmtPid, channel.pcrPid, channel.videoPid, channel.audioPid]

/-- A channel on the mux of `channel`, which may be `channel` itself. -/
def OnSameMux (db : ChannelDb) (channel target : DvbChannel) : Prop :=
  target = channel ∨ target ∈ db.onFreq channel.frequencyHz

/-- The channel whose program number is asked for, as integers compare; the
given channel if there is none. -/
def AskedFor (db : ChannelDb) (channel : DvbChannel) (programOverride : Int)
    (target : DvbChannel) : Prop :=
  (0 < programOverride ∧ OnSameMux db channel target ∧
      (target.programNumber.toNat : Int) = programOverride) ∨
    (¬ (0 < programOverride ∧ ∃ other, OnSameMux db channel other ∧
      (other.programNumber.toNat : Int) = programOverride) ∧ target = channel)

/-- Each PID at most once, at most six of them, and the ones that are asked for.
Where ranges overlap, a PID counts as often as it is named. -/
structure OpensAskedPids (db : ChannelDb) (channel : DvbChannel) (programOverride : Int)
    (pidFilter : CStr) (pids : List UInt16) : Prop where
  once : pids.Nodup
  few : pids.length ≤ 6
  listed : ∀ ranges, explicitFilter? pidFilter = some ranges → pidFilterTotalCount ranges ≤ 5 →
    ∀ pid, pid ∈ pids ↔ pid = 0 ∨ ∃ range ∈ ranges, range.start ≤ pid ∧ pid ≤ range.last
  wide : ∀ ranges, explicitFilter? pidFilter = some ranges → 5 < pidFilterTotalCount ranges →
    pids = [0x2000]
  fullMux : explicitFilter? pidFilter = none → programOverride = 0 → pids = [0x2000]
  program : explicitFilter? pidFilter = none → programOverride ≠ 0 →
    ∃ target, AskedFor db channel programOverride target ∧
      ∀ pid, pid ∈ pids ↔ pid = 0 ∨ pid ∈ target.fieldPids

/-- The same PIDs, apart from zero. -/
def SameNonzeroPids (first second : DvbChannel) : Prop :=
  ∀ pid, pid ≠ 0 → (pid ∈ first.fieldPids ↔ pid ∈ second.fieldPids)

/-- A number that is no program number is not taken for the one that its lowest
16 bits are, unless that makes no difference. -/
def OverrideTaken (db : ChannelDb) (channel : DvbChannel) (programOverride : Int)
    (pidFilter : CStr) : Prop :=
  explicitFilter? pidFilter = none → 2 ^ 16 ≤ programOverride →
    ∀ sibling, ((db.onFreq channel.frequencyHz).find? fun sibling =>
        (sibling.programNumber.toNat : Int) = programOverride % 2 ^ 16) = some sibling →
      SameNonzeroPids sibling channel

/-- The comparison with the lowest 16 bits. -/
theorem siblingMatches {programOverride : Int} (positive : 0 < programOverride)
    (sibling : DvbChannel) :
    (sibling.programNumber == UInt16.ofNat programOverride.toNat) =
      decide ((sibling.programNumber.toNat : Int) = programOverride % 2 ^ 16) := by
  have bound := sibling.programNumber.toNat_lt
  rw [Bool.eq_iff_iff, beq_iff_eq, decide_eq_true_iff, ← UInt16.toNat_inj, UInt16.toNat_ofNat']
  omega

theorem programTarget_eq_find? (db : ChannelDb) (channel : DvbChannel) (programOverride : Int) :
    programTarget db channel programOverride =
      if 0 < programOverride ∧ programOverride ≠ channel.programNumber.toNat then
        ((db.onFreq channel.frequencyHz).find? fun sibling =>
          (sibling.programNumber.toNat : Int) = programOverride % 2 ^ 16).getD channel
      else channel := by
  rw [programTarget]
  by_cases other : 0 < programOverride ∧ programOverride ≠ channel.programNumber.toNat
  · rw [if_pos other, if_pos other]
    congr 2
    funext sibling
    exact siblingMatches other.1 sibling
  · rw [if_neg other, if_neg other]

/-- A program number of 16 bits is looked up as it is. -/
theorem askedFor_programTarget {db : ChannelDb} {channel : DvbChannel} {programOverride : Int}
    (small : programOverride < 2 ^ 16) :
    AskedFor db channel programOverride (programTarget db channel programOverride) := by
  rw [programTarget_eq_find?]
  by_cases positive : 0 < programOverride
  · by_cases own : programOverride = channel.programNumber.toNat
    · rw [if_neg fun other => other.2 own]
      exact .inl ⟨positive, .inl rfl, own.symm⟩
    · rw [if_pos ⟨positive, own⟩]
      have word : programOverride % 2 ^ 16 = programOverride := by omega
      rw [word]
      cases found : (db.onFreq channel.frequencyHz).find? fun sibling =>
          (sibling.programNumber.toNat : Int) = programOverride with
      | some sibling =>
          have same := List.find?_some found
          exact .inl ⟨positive, .inr (List.mem_of_find?_eq_some found), decide_eq_true_iff.mp same⟩
      | none =>
          refine .inr ⟨?_, rfl⟩
          rintro ⟨-, other, rfl | member, same⟩
          · exact own same.symm
          · exact List.find?_eq_none.mp found other member (decide_eq_true_iff.mpr same)
  · rw [if_neg fun other => positive other.1]
    exact .inr ⟨fun other => positive other.1, rfl⟩

/-- No channel has a larger program number. -/
theorem askedFor_iff_of_large {db : ChannelDb} {channel target : DvbChannel}
    {programOverride : Int} (large : 2 ^ 16 ≤ programOverride) :
    AskedFor db channel programOverride target ↔ target = channel := by
  have differs : ∀ other : DvbChannel, (other.programNumber.toNat : Int) ≠ programOverride := by
    intro other same
    have bound := other.programNumber.toNat_lt
    omega
  constructor
  · rintro (⟨-, -, same⟩ | ⟨-, own⟩)
    · exact absurd same (differs target)
    · exact own
  · intro own
    refine .inr ⟨?_, own⟩
    rintro ⟨-, other, -, same⟩
    exact differs other same

/-- The PIDs of a program that is streamed without a filter. -/
theorem fieldPids_opened (db : ChannelDb) (channel : DvbChannel) {programOverride : Int}
    {pidFilter : CStr} (noFilter : explicitFilter? pidFilter = none)
    (program : programOverride ≠ 0) :
    ∃ pids, dvbStreamPids db channel programOverride pidFilter = some pids ∧ pids.Nodup ∧
      pids.length ≤ maxDemuxFds ∧
      ∀ pid, pid ∈ pids ↔
        pid = 0 ∨ pid ∈ (programTarget db channel programOverride).fieldPids := by
  have few : (programTarget db channel programOverride).fieldPids.length ≤ maxDemuxFds - 1 :=
    Nat.le_of_ble_eq_true rfl
  obtain ⟨pids, opens, rest⟩ := withPat_opened few
  refine ⟨pids, ?_, rest⟩
  rw [← opens, dvbStreamPids, noFilter]
  exact if_neg program

/-- A program number that is too large leads to the PIDs of the channel, if it is
not taken for another one. -/
theorem pids_of_large {db : ChannelDb} {channel : DvbChannel} {programOverride : Int}
    {pidFilter : CStr} (noFilter : explicitFilter? pidFilter = none)
    (taken : OverrideTaken db channel programOverride pidFilter)
    (large : 2 ^ 16 ≤ programOverride) :
    SameNonzeroPids (programTarget db channel programOverride) channel := by
  rw [programTarget_eq_find?]
  split
  · cases found : (db.onFreq channel.frequencyHz).find? fun sibling =>
        (sibling.programNumber.toNat : Int) = programOverride % 2 ^ 16 with
    | some sibling => exact taken noFilter large sibling found
    | none => exact fun _ _ => Iff.rfl
  · exact fun _ _ => Iff.rfl

theorem fullMux_opened (db : ChannelDb) (channel : DvbChannel) (programOverride : Int)
    (pidFilter : CStr) (wild : dvbStreamPids db channel programOverride pidFilter = some [0x2000])
    (noFew : ∀ ranges, explicitFilter? pidFilter = some ranges → 5 < pidFilterTotalCount ranges)
    (noProgram : explicitFilter? pidFilter = none → programOverride = 0) :
    ∃ pids, dvbStreamPids db channel programOverride pidFilter = some pids ∧
      OpensAskedPids db channel programOverride pidFilter pids := by
  refine ⟨[0x2000], wild, List.nodup_singleton _, by decide, ?_, fun _ _ _ => rfl,
    fun _ _ => rfl, ?_⟩
  · intro ranges found few
    have wide := noFew ranges found
    omega
  · intro noFilter program
    exact absurd (noProgram noFilter) program

theorem overrideTaken_of_opened {db : ChannelDb} {channel : DvbChannel} {programOverride : Int}
    {pidFilter : CStr}
    (opened : ∃ pids, dvbStreamPids db channel programOverride pidFilter = some pids ∧
      OpensAskedPids db channel programOverride pidFilter pids) :
    OverrideTaken db channel programOverride pidFilter := by
  obtain ⟨pids, opens, asked⟩ := opened
  intro noFilter large sibling found pid nonzero
  have program : programOverride ≠ 0 := by omega
  obtain ⟨target, isAsked, wanted⟩ := asked.program noFilter program
  have own := (askedFor_iff_of_large large).mp isAsked
  have taken : programTarget db channel programOverride = sibling := by
    have bound := channel.programNumber.toNat_lt
    rw [programTarget_eq_find?, if_pos ⟨by omega, by omega⟩, found, Option.getD_some]
  obtain ⟨same, opens', -, -, members⟩ :=
    fieldPids_opened db channel noFilter program
  cases opens.symm.trans opens'
  have both := (members pid).symm.trans (wanted pid)
  rw [taken, own] at both
  tauto

theorem opened_of_overrideTaken {db : ChannelDb} {channel : DvbChannel} {programOverride : Int}
    {pidFilter : CStr} (taken : OverrideTaken db channel programOverride pidFilter) :
    ∃ pids, dvbStreamPids db channel programOverride pidFilter = some pids ∧
      OpensAskedPids db channel programOverride pidFilter pids := by
  cases found : explicitFilter? pidFilter with
  | some ranges =>
      by_cases few : pidFilterTotalCount ranges ≤ maxDemuxFds - 1
      · have short : (ranges.flatMap PidRange.pids).length ≤ maxDemuxFds - 1 := by
          rw [length_flatMap_pids]
          exact few
        obtain ⟨pids, opens, nodup, length, members⟩ := withPat_opened short
        refine ⟨pids, ?_, nodup, length, ?_, ?_, ?_, ?_⟩
        · rw [← opens, dvbStreamPids, found]
          exact if_pos few
        · intro other same _ pid
          cases found.symm.trans same
          rw [members, List.mem_flatMap]
          simp only [PidRange.mem_pids]
        · intro other same wide
          cases found.symm.trans same
          exact absurd few (Nat.not_le.mpr wide)
        · intro none
          cases found.symm.trans none
        · intro none
          cases found.symm.trans none
      · apply fullMux_opened
        · rw [dvbStreamPids, found]
          exact if_neg few
        · intro other same
          cases found.symm.trans same
          exact Nat.not_le.mp few
        · intro none
          cases found.symm.trans none
  | none =>
      by_cases program : programOverride = 0
      · apply fullMux_opened
        · rw [program, dvbStreamPids_full_mux found]
          rfl
        · intro ranges some
          cases found.symm.trans some
        · exact fun _ => program
      · obtain ⟨pids, opens, nodup, length, members⟩ :=
          fieldPids_opened db channel found program
        refine ⟨pids, opens, nodup, length, ?_, ?_, fun _ zero => absurd zero program,
          fun _ _ => ?_⟩
        · intro ranges some
          cases found.symm.trans some
        · intro ranges some
          cases found.symm.trans some
        · by_cases small : programOverride < 2 ^ 16
          · exact ⟨_, askedFor_programTarget small, members⟩
          · refine ⟨channel, (askedFor_iff_of_large (Int.not_lt.mp small)).mpr rfl, fun pid => ?_⟩
            have same := pids_of_large found taken (Int.not_lt.mp small) pid
            rw [members]
            tauto

/-- The PIDs that are opened are the ones asked for, exactly when no number is
taken for the program that its lowest 16 bits are. -/
theorem asked_pids_opened_iff (db : ChannelDb) (channel : DvbChannel) (programOverride : Int)
    (pidFilter : CStr) :
    (∃ pids, dvbStreamPids db channel programOverride pidFilter = some pids ∧
      OpensAskedPids db channel programOverride pidFilter pids) ↔
      OverrideTaken db channel programOverride pidFilter :=
  ⟨overrideTaken_of_opened, opened_of_overrideTaken⟩

/-- Two programs of one mux. -/
def twoPrograms : ChannelDb where
  channels :=
    [{ DvbChannel.zero with
        major := 7, minor := 1, frequencyHz := 177000000, programNumber := 3
        pmtPid := 0x30, pcrPid := 0x31, videoPid := 0x31, audioPid := 0x34 },
      { DvbChannel.zero with
        major := 7, minor := 2, frequencyHz := 177000000, programNumber := 5
        pmtPid := 0x50, pcrPid := 0x51, videoPid := 0x51, audioPid := 0x54 }]
  keys_nodup := by decide
  bounded := by decide

/-- Program 65541 is taken for program 5. -/
theorem large_program_taken_for_another :
    dvbStreamPids twoPrograms (twoPrograms.deref ⟨7, 1⟩) 65541 [] = some [0x00, 0x50, 0x51, 0x54] ∧
      ¬ ∃ pids, dvbStreamPids twoPrograms (twoPrograms.deref ⟨7, 1⟩) 65541 [] = some pids ∧
        OpensAskedPids twoPrograms (twoPrograms.deref ⟨7, 1⟩) 65541 [] pids := by
  refine ⟨by decide, fun opened => ?_⟩
  have same := overrideTaken_of_opened opened (by decide) (by decide) (twoPrograms.deref ⟨7, 2⟩)
    (by decide) 0x50 (by decide)
  exact absurd (same.mp (by decide)) (by decide)

end HdhrEmu
