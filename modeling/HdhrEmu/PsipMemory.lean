import HdhrEmu.Lib.CheckedMemory
import HdhrEmu.Psip
import Mathlib.Data.List.Induction

/-!
# The memory the section parsers touch

The parsers of `psip.c` once more, as they work on arrays: every byte that is
read is checked against the section, and inside the loops also against the
checksum, and every entry that is written against the room for it.
-/

namespace HdhrEmu

open CheckedMemory

namespace PsipMemory

def rd16 (sec : List UInt8) (limit off : Nat) : Checked UInt16 := do
  let high ← load sec limit off
  let low ← load sec limit (off + 1)
  return (high.toUInt16 <<< 8) ||| low.toUInt16

/-- The checks that the parsers begin with. -/
def sectionTotal (sec : List UInt8) : Checked (Option Nat) :=
  if sec.length < 12 then return none
  else do
    let high ← load sec sec.length 1
    let low ← load sec sec.length 2
    let total := 3 + (((high &&& 0x0F).toNat <<< 8) ||| low.toNat)
    return if sec.length < total ∨ total < 12 then none else some total

/-- The loop of `psip_parse_pat`. -/
def patLoop (sec : List UInt8) (entriesEnd off : Nat) (out : List PatEntry) (count : Nat) :
    Checked (List PatEntry × Nat) :=
  if off + 4 ≤ entriesEnd ∧ count < out.length then do
    let programNumber ← rd16 sec entriesEnd off
    let pid ← rd16 sec entriesEnd (off + 2)
    if programNumber = 0 then patLoop sec entriesEnd (off + 4) out count
    else do
      let out ← store out count ⟨programNumber, pid &&& 0x1FFF⟩
      patLoop sec entriesEnd (off + 4) out (count + 1)
  else return (out, count)
termination_by entriesEnd - off

def psipParsePat (sec : List UInt8) (out : List PatEntry) : Checked (List PatEntry × Int) := do
  match ← sectionTotal sec with
  | none => return (out, -1)
  | some total =>
      let (out, count) ← patLoop sec (total - 4) 8 out 0
      return (out, count)

/-- `struct pmt_info`. -/
structure PmtMemory where
  programNumber : UInt16
  pcrPid : UInt16
  streamCount : Nat
  streams : List PmtStream

/-- `memset(out, 0, sizeof(*out))`. -/
def PmtMemory.zero : PmtMemory :=
  ⟨0, 0, 0, List.replicate pmtMaxStreams ⟨0, 0⟩⟩

/-- The loop of `psip_parse_pmt`. -/
def pmtLoop (sec : List UInt8) (last off : Nat) (out : PmtMemory) : Checked PmtMemory :=
  if off + 5 ≤ last ∧ out.streamCount < pmtMaxStreams then do
    let streamType ← load sec last off
    let elemPid ← rd16 sec last (off + 1)
    let esInfoLength ← rd16 sec last (off + 3)
    let streams ← store out.streams out.streamCount ⟨streamType, elemPid &&& 0x1FFF⟩
    pmtLoop sec last (off + (5 + (esInfoLength &&& 0x0FFF).toNat))
      { out with streams, streamCount := out.streamCount + 1 }
  else return out
termination_by last - off

def psipParsePmt (sec : List UInt8) (out : PmtMemory) : Checked (PmtMemory × Int) := do
  match ← sectionTotal sec with
  | none => return (out, -1)
  | some total =>
      let programNumber ← rd16 sec sec.length 3
      let pcrPid ← rd16 sec sec.length 8
      let programInfoLength ← rd16 sec sec.length 10
      let out ← pmtLoop sec (total - 4) (12 + (programInfoLength &&& 0x0FFF).toNat)
        { PmtMemory.zero with programNumber, pcrPid := pcrPid &&& 0x1FFF }
      return (out, out.streamCount)

def nul : Char := '\x00'

/-- The loop of `decode_short_name` over the code units that are left. -/
def nameLoop (sec : List UInt8) (last off : Nat) :
    Nat → Nat → Nat → List Char → Checked (List Char × Nat)
  | 0, _, o, out => return (out, o)
  | left + 1, i, o, out =>
      if o + 1 < out.length then do
        let unit ← rd16 sec last (off + i * 2)
        if unit = 0 then return (out, o)
        else do
          let out ← store out o (asciiUnit unit)
          nameLoop sec last off left (i + 1) (o + 1) out
      else return (out, o)

/-- The loop that trims the blanks. -/
def trimLoop : Nat → List Char → Checked (List Char)
  | 0, out => return out
  | o + 1, out => do
      if (← load out out.length o) = ' ' then
        let out ← store out o nul
        trimLoop o out
      else return out

def decodeShortName (sec : List UInt8) (last off : Nat) (out : List Char) :
    Checked (List Char) := do
  let (out, o) ← nameLoop sec last off 7 0 0 out
  let out ← store out o nul
  trimLoop o out

/-- `struct tvct_entry`. -/
structure TvctSlot where
  shortName : List Char
  majorChannelNumber : Nat
  minorChannelNumber : Nat
  channelTsid : UInt16
  programNumber : UInt16
  hidden : Bool

def tvctSlot (sec : List UInt8) (last off : Nat) : Checked TvctSlot := do
  let shortName ← decodeShortName sec last off (List.replicate 16 nul)
  let high ← load sec last (off + 14)
  let middle ← load sec last (off + 15)
  let low ← load sec last (off + 16)
  let triplet := (high.toNat <<< 16) ||| (middle.toNat <<< 8) ||| low.toNat
  let channelTsid ← rd16 sec last (off + 22)
  let programNumber ← rd16 sec last (off + 24)
  let flagsByte ← load sec last (off + 26)
  return {
    shortName
    majorChannelNumber := (triplet >>> 10) &&& 0x3FF
    minorChannelNumber := triplet &&& 0x3FF
    channelTsid
    programNumber
    hidden := flagsByte &&& 0x10 ≠ 0 }

/-- The loop of `psip_parse_tvct` over the channels that are left. -/
def tvctLoop (sec : List UInt8) (last : Nat) :
    Nat → Nat → List TvctSlot → Nat → Checked (List TvctSlot × Nat)
  | 0, _, out, count => return (out, count)
  | left + 1, off, out, count =>
      if count < out.length then
        if off + 32 ≤ last then do
          let slot ← tvctSlot sec last off
          let out ← store out count slot
          let descriptorsLength ← rd16 sec last (off + 30)
          tvctLoop sec last left (off + (32 + (descriptorsLength &&& 0x03FF).toNat)) out (count + 1)
        else return (out, count)
      else return (out, count)

/-- The array, the section numbers if they were set, and the result. -/
def psipParseTvct (sec : List UInt8) (out : List TvctSlot) :
    Checked (List TvctSlot × Option (UInt8 × UInt8) × Int) := do
  match ← sectionTotal sec with
  | none => return (out, none, -1)
  | some total =>
      let sectionNumber ← load sec sec.length 6
      let lastSectionNumber ← load sec sec.length 7
      let numChannels ← load sec sec.length 9
      let (out, count) ← tvctLoop sec (total - 4) numChannels.toNat 10 out 0
      return (out, some (sectionNumber, lastSectionNumber), count)

theorem rd16_eq {sec : List UInt8} {limit off : Nat} (there : limit ≤ sec.length)
    (inside : off + 1 < limit) : rd16 sec limit off = .ok (HdhrEmu.rd16 sec off) := by
  rw [rd16, load_eq (by omega) (by omega) 0, ok_bind, load_eq (by omega) inside 0, ok_bind]
  rfl

theorem sectionTotal_eq (sec : List UInt8) :
    sectionTotal sec = .ok (HdhrEmu.sectionTotal sec) := by
  rw [sectionTotal, HdhrEmu.sectionTotal]
  by_cases short : sec.length < 12
  · rw [if_pos short, if_pos short]
    rfl
  · rw [if_neg short, if_neg short, load_eq (by omega) (by omega) 0, ok_bind,
      load_eq (by omega) (by omega) 0, ok_bind]
    rfl

theorem sectionTotal_bounds {sec : List UInt8} {total : Nat}
    (found : HdhrEmu.sectionTotal sec = some total) : 12 ≤ total ∧ total ≤ sec.length := by
  unfold HdhrEmu.sectionTotal at found
  split at found
  · cases found
  · dsimp only at found
    split at found
    · cases found
    · cases found
      omega

/-- The entries that are left behind an offset. -/
def patEntriesFrom (sec : List UInt8) (off n : Nat) : List PatEntry :=
  ((List.range n).map fun i =>
    PatEntry.mk (HdhrEmu.rd16 sec (off + 4 * i)) (HdhrEmu.rd16 sec (off + 4 * i + 2) &&& 0x1FFF)).filter
      fun entry => entry.programNumber ≠ 0

theorem patEntriesFrom_succ (sec : List UInt8) (off n : Nat) :
    patEntriesFrom sec off (n + 1) =
      if HdhrEmu.rd16 sec off = 0 then patEntriesFrom sec (off + 4) n
      else ⟨HdhrEmu.rd16 sec off, HdhrEmu.rd16 sec (off + 2) &&& 0x1FFF⟩ ::
        patEntriesFrom sec (off + 4) n := by
  have next : ∀ i, off + 4 * (i + 1) = off + 4 + 4 * i := by omega
  rw [patEntriesFrom, List.range_succ_eq_map, List.map_cons, List.map_map, List.filter_cons]
  simp only [Function.comp_def, Nat.succ_eq_add_one, next, Nat.mul_zero, Nat.add_zero,
    decide_eq_true_eq, patEntriesFrom]
  split <;> simp_all

theorem patLoop_eq {sec : List UInt8} {entriesEnd : Nat} (there : entriesEnd ≤ sec.length)
    {n off : Nat} (left : (entriesEnd - off) / 4 = n) {out : List PatEntry} {count : Nat}
    (room : count ≤ out.length) :
    patLoop sec entriesEnd off out count =
      .ok (overwrite out count ((patEntriesFrom sec off n).take (out.length - count)),
        count + ((patEntriesFrom sec off n).take (out.length - count)).length) := by
  induction n generalizing off out count with
  | zero =>
      have finished : ¬ (off + 4 ≤ entriesEnd ∧ count < out.length) := by omega
      have none : patEntriesFrom sec off 0 = [] := rfl
      rw [patLoop, if_neg finished, none, List.take_nil, overwrite_nil]
      rfl
  | succ n ih =>
      rw [patLoop]
      by_cases more : count < out.length
      · have inside : off + 4 ≤ entriesEnd := by omega
        rw [if_pos ⟨inside, more⟩, rd16_eq there (by omega), ok_bind, rd16_eq there (by omega),
          ok_bind, patEntriesFrom_succ]
        split
        · exact ih (by omega) room
        · obtain ⟨free, same⟩ : ∃ free, out.length - count = free + 1 :=
            ⟨out.length - count - 1, by omega⟩
          rw [store_eq more, ok_bind, ih (by omega) (by rw [List.length_set]; omega),
            List.length_set, overwrite_set more, same, List.take_succ_cons, List.length_cons]
          have rest : out.length - (count + 1) = free := by omega
          rw [rest, Nat.add_right_comm, Nat.add_assoc]
      · have full : out.length - count = 0 := by omega
        rw [if_neg fun both => more both.2, full, List.take_zero, overwrite_nil]
        rfl

theorem pmtLoop_eq {sec : List UInt8} {last : Nat} (there : last ≤ sec.length) {room off : Nat}
    {out : PmtMemory} (array : out.streams.length = pmtMaxStreams)
    (left : out.streamCount + room = pmtMaxStreams) :
    pmtLoop sec last off out =
      .ok { out with
        streams := overwrite out.streams out.streamCount (pmtStreams sec last room off)
        streamCount := out.streamCount + (pmtStreams sec last room off).length } := by
  induction room generalizing off out with
  | zero =>
      have finished : ¬ (off + 5 ≤ last ∧ out.streamCount < pmtMaxStreams) := by omega
      rw [pmtLoop, if_neg finished, pmtStreams, overwrite_nil]
      rfl
  | succ room ih =>
      rw [pmtLoop, pmtStreams]
      by_cases inside : off + 5 ≤ last
      · have more : out.streamCount < pmtMaxStreams := by omega
        have slot : out.streamCount < out.streams.length := by omega
        rw [if_pos ⟨inside, more⟩, if_pos inside, load_eq (by omega) (by omega) 0, ok_bind,
          rd16_eq there (by omega), ok_bind, rd16_eq there (by omega), ok_bind, store_eq slot,
          ok_bind, ih (by rw [List.length_set, array]) (by dsimp only; omega), overwrite_set slot,
          List.length_cons]
        dsimp only
        rw [Nat.add_right_comm, Nat.add_assoc]
      · rw [if_neg fun both => inside both.1, if_neg inside, overwrite_nil]
        rfl

/-- The code units that are left behind an offset. -/
def unitsFrom (sec : List UInt8) (off i n : Nat) : List UInt16 :=
  (List.range n).map fun j => HdhrEmu.rd16 sec (off + (i + j) * 2)

theorem unitsFrom_succ (sec : List UInt8) (off i n : Nat) :
    unitsFrom sec off i (n + 1) =
      HdhrEmu.rd16 sec (off + i * 2) :: unitsFrom sec off (i + 1) n := by
  have next : ∀ j, off + (i + (j + 1)) * 2 = off + (i + 1 + j) * 2 := by omega
  rw [unitsFrom, List.range_succ_eq_map, List.map_cons, List.map_map]
  simp only [Function.comp_def, Nat.succ_eq_add_one, next, Nat.add_zero, unitsFrom]

/-- What the units up to the first zero look like. -/
def asciiText (units : List UInt16) : List Char :=
  (units.takeWhile (· ≠ 0)).map asciiUnit

theorem nameLoop_eq {sec : List UInt8} {last off : Nat} (there : last ≤ sec.length) {left i o : Nat}
    (inside : off + (i + left) * 2 ≤ last) {out : List Char} (room : o + left < out.length) :
    nameLoop sec last off left i o out =
      .ok (overwrite out o (asciiText (unitsFrom sec off i left)),
        o + (asciiText (unitsFrom sec off i left)).length) := by
  induction left generalizing i o out with
  | zero =>
      have none : asciiText (unitsFrom sec off i 0) = [] := rfl
      rw [nameLoop, none, overwrite_nil]
      rfl
  | succ left ih =>
      rw [nameLoop, if_pos (by omega), rd16_eq there (by omega), ok_bind, unitsFrom_succ, asciiText,
        List.takeWhile_cons]
      by_cases zero : HdhrEmu.rd16 sec (off + i * 2) = 0
      · rw [if_pos zero, if_neg (by simpa using zero), List.map_nil, overwrite_nil]
        rfl
      · have slot : o < out.length := by omega
        rw [if_neg zero, if_pos (by simpa using zero), store_eq slot, ok_bind,
          ih (by omega) (by rw [List.length_set]; omega), overwrite_set slot, List.map_cons,
          List.length_cons, Nat.add_right_comm, Nat.add_assoc]
        rfl

theorem trimRight_blank (text : CStr) : trimRight (text ++ [' ']) = trimRight text := by
  rw [trimRight, List.reverse_append]
  rfl

theorem trimRight_other {character : Char} (other : character ≠ ' ') (text : CStr) :
    trimRight (text ++ [character]) = text ++ [character] := by
  rw [trimRight, List.reverse_append, List.reverse_singleton, List.singleton_append,
    List.dropWhile_cons_of_neg (by simpa using other), List.reverse_cons, List.reverse_reverse]

/-- Every blank that is trimmed becomes a zero. -/
theorem trimLoop_eq (text : CStr) (zeros : Nat) :
    trimLoop text.length (text ++ List.replicate zeros nul) =
      .ok (trimRight text ++
        List.replicate (text.length + zeros - (trimRight text).length) nul) := by
  induction text using List.reverseRecOn generalizing zeros with
  | nil => simp [trimLoop, trimRight, pure, Except.pure]
  | append_singleton text character ih =>
      have inside : text.length < (text ++ [character] ++ List.replicate zeros nul).length := by
        rw [List.length_append, List.length_append, List.length_singleton]
        omega
      have here : (text ++ [character] ++ List.replicate zeros nul).getD text.length nul =
          character := by
        simp [List.getD_eq_getElem?_getD]
      rw [List.length_append, List.length_singleton, trimLoop, load_eq inside inside nul, ok_bind,
        here]
      by_cases blank : character = ' '
      · subst blank
        have zeroed : (text ++ [' '] ++ List.replicate zeros nul).set text.length nul =
            text ++ List.replicate (zeros + 1) nul := by
          simp [List.replicate_succ]
        rw [if_pos rfl, store_eq inside, ok_bind, zeroed, ih, trimRight_blank]
        have same : text.length + (zeros + 1) = text.length + 1 + zeros := by omega
        rw [same]
      · rw [if_neg blank, trimRight_other blank, List.length_append, List.length_singleton]
        have same : text.length + 1 + zeros - (text.length + 1) = zeros := by omega
        rw [same]
        rfl

/-- A name in its sixteen bytes. -/
def padded (name : CStr) : List Char :=
  name ++ List.replicate (16 - name.length) nul

theorem decodeShortName_eq {sec : List UInt8} {last off : Nat} (there : last ≤ sec.length)
    (inside : off + 14 ≤ last) :
    decodeShortName sec last off (List.replicate 16 nul) =
      .ok (padded (HdhrEmu.decodeShortName ((List.range 7).map fun i =>
        HdhrEmu.rd16 sec (off + i * 2)))) := by
  have units : ((List.range 7).map fun i => HdhrEmu.rd16 sec (off + i * 2)) =
      unitsFrom sec off 0 7 := by
    simp only [unitsFrom, Nat.zero_add]
  have short : (asciiText (unitsFrom sec off 0 7)).length ≤ 7 := by
    have taken := (List.takeWhile_prefix (l := unitsFrom sec off 0 7)
      (fun unit => decide (unit ≠ 0))).length_le
    rw [asciiText, List.length_map]
    rw [unitsFrom, List.length_map, List.length_range] at taken
    exact taken
  rw [decodeShortName, nameLoop_eq there (by omega) (by rw [List.length_replicate]; omega), ok_bind,
    units, HdhrEmu.decodeShortName, ← asciiText]
  generalize asciiText (unitsFrom sec off 0 7) = text at short
  have written : overwrite (List.replicate 16 nul) 0 text =
      text ++ List.replicate (16 - text.length) nul := by
    rw [overwrite_zero, List.drop_replicate]
  have terminated : (text ++ List.replicate (16 - text.length) nul).set (0 + text.length) nul =
      text ++ List.replicate (16 - text.length) nul := by
    rw [Nat.zero_add, List.set_append_right _ _ (Nat.le_refl _), Nat.sub_self]
    obtain ⟨more, same⟩ : ∃ more, 16 - text.length = more + 1 := ⟨15 - text.length, by omega⟩
    rw [same]
    rfl
  dsimp only
  rw [written, store_eq (by rw [List.length_append, List.length_replicate]; omega), ok_bind,
    terminated, Nat.zero_add, trimLoop_eq, padded]
  have all : text.length + (16 - text.length) = 16 := by omega
  rw [all]

/-- An entry as it is stored. -/
def TvctSlot.of (entry : TvctEntry) : TvctSlot where
  shortName := padded entry.shortName
  majorChannelNumber := entry.majorChannelNumber
  minorChannelNumber := entry.minorChannelNumber
  channelTsid := entry.channelTsid
  programNumber := entry.programNumber
  hidden := entry.hidden

/-- The sixteen bytes of the name have a zero among them. -/
def TvctSlot.Terminated (slot : TvctSlot) : Prop :=
  slot.shortName.length = 16 ∧ nul ∈ slot.shortName

theorem TvctSlot.terminated_of {entry : TvctEntry} (name : TableName entry.shortName) :
    (TvctSlot.of entry).Terminated := by
  have short := name.short
  constructor
  · rw [of, padded, List.length_append, List.length_replicate]
    omega
  · exact List.mem_append_right _ (List.mem_replicate.mpr ⟨by omega, rfl⟩)

theorem tvctSlot_eq {sec : List UInt8} {last off : Nat} (there : last ≤ sec.length)
    (inside : off + 32 ≤ last) :
    tvctSlot sec last off = .ok (TvctSlot.of (tvctEntry sec off)) := by
  rw [tvctSlot, decodeShortName_eq there (by omega), ok_bind, load_eq (by omega) (by omega) 0,
    ok_bind, load_eq (by omega) (by omega) 0, ok_bind, load_eq (by omega) (by omega) 0, ok_bind,
    rd16_eq there (by omega), ok_bind, rd16_eq there (by omega), ok_bind,
    load_eq (by omega) (by omega) 0, ok_bind]
  rfl

theorem tvctLoop_eq {sec : List UInt8} {last : Nat} (there : last ≤ sec.length) {left off : Nat}
    {out : List TvctSlot} {count : Nat} (room : count ≤ out.length) :
    tvctLoop sec last left off out count =
      .ok (overwrite out count
          ((tvctEntries sec last (min left (out.length - count)) off).map TvctSlot.of),
        count + (tvctEntries sec last (min left (out.length - count)) off).length) := by
  induction left generalizing off out count with
  | zero =>
      rw [tvctLoop, Nat.zero_min, tvctEntries, List.map_nil, overwrite_nil]
      rfl
  | succ left ih =>
      rw [tvctLoop]
      by_cases more : count < out.length
      · have rooms : min (left + 1) (out.length - count) =
            min left (out.length - (count + 1)) + 1 := by omega
        rw [if_pos more, rooms, tvctEntries]
        by_cases inside : off + 32 ≤ last
        · rw [if_pos inside, if_pos inside, tvctSlot_eq there inside, ok_bind, store_eq more, ok_bind,
            rd16_eq there (by omega), ok_bind, ih (by rw [List.length_set]; omega), List.length_set,
            overwrite_set more, List.map_cons, List.length_cons, Nat.add_right_comm, Nat.add_assoc]
        · rw [if_neg inside, if_neg inside, List.map_nil, overwrite_nil]
          rfl
      · have full : out.length - count = 0 := by omega
        rw [if_neg more, full, Nat.min_zero, tvctEntries, List.map_nil, overwrite_nil]
        rfl

/-- What is in an array and what is returned, when these entries are parsed:
a prefix is written, or nothing is. -/
def Stored {α : Type} (before : List α) (entries : Option (List α)) (after : List α)
    (result : Int) : Prop :=
  match entries with
  | none => result = -1 ∧ after = before
  | some entries =>
      result = entries.length ∧ entries.length ≤ before.length ∧
        after = entries ++ before.drop entries.length

theorem stored_overwrite {α : Type} {before found : List α} (room : found.length ≤ before.length) :
    Stored before (some found) (overwrite before 0 found) ((0 + found.length : Nat) : Int) := by
  rw [Nat.zero_add, overwrite_zero]
  exact ⟨rfl, room, rfl⟩

theorem psipParsePat_returns (sec : List UInt8) (out : List PatEntry) :
    Returns (psipParsePat sec out) fun (after, result) =>
      Stored out (HdhrEmu.psipParsePat sec out.length) after result := by
  rw [psipParsePat, sectionTotal_eq, ok_bind, HdhrEmu.psipParsePat]
  cases found : HdhrEmu.sectionTotal sec with
  | none => exact ⟨_, rfl, rfl, rfl⟩
  | some total =>
      obtain ⟨atLeast, there⟩ := sectionTotal_bounds found
      have count : (total - 4 - 8) / 4 = (total - 12) / 4 := by omega
      dsimp only
      rw [patLoop_eq (by omega) count (Nat.zero_le _), ok_bind]
      exact ⟨_, rfl, stored_overwrite (List.length_take_le _ _)⟩

/-- A program map as it is stored. -/
def PmtMemory.of (info : PmtInfo) : PmtMemory where
  programNumber := info.programNumber
  pcrPid := info.pcrPid
  streamCount := info.streams.length
  streams := info.streams ++ List.replicate (pmtMaxStreams - info.streams.length) ⟨0, 0⟩

theorem psipParsePmt_returns (sec : List UInt8) (out : PmtMemory) :
    Returns (psipParsePmt sec out) fun (after, result) =>
      match HdhrEmu.psipParsePmt sec with
      | none => result = -1 ∧ after = out
      | some info =>
          result = info.streams.length ∧ info.streams.length ≤ pmtMaxStreams ∧
            after = PmtMemory.of info := by
  rw [psipParsePmt, sectionTotal_eq, ok_bind, HdhrEmu.psipParsePmt]
  cases found : HdhrEmu.sectionTotal sec with
  | none => exact ⟨_, rfl, rfl, rfl⟩
  | some total =>
      obtain ⟨atLeast, there⟩ := sectionTotal_bounds found
      have room := length_pmtStreams sec (total - 4) pmtMaxStreams
        (12 + (HdhrEmu.rd16 sec 10 &&& 0x0FFF).toNat)
      dsimp only
      rw [rd16_eq (Nat.le_refl _) (by omega), ok_bind, rd16_eq (Nat.le_refl _) (by omega), ok_bind,
        rd16_eq (Nat.le_refl _) (by omega), ok_bind,
        pmtLoop_eq (by omega) List.length_replicate (Nat.zero_add pmtMaxStreams), ok_bind]
      refine ⟨_, rfl, ?_, room, ?_⟩
      · exact congrArg Int.ofNat (Nat.zero_add _)
      · rw [PmtMemory.of]
        dsimp only [PmtMemory.zero]
        rw [overwrite_zero, List.drop_replicate, Nat.zero_add]

theorem psipParseTvct_returns (sec : List UInt8) (out : List TvctSlot) :
    Returns (psipParseTvct sec out) fun (after, numbers, result) =>
      Stored out ((HdhrEmu.psipParseTvct sec out.length).map fun parsed =>
          parsed.1.map TvctSlot.of) after result ∧
        numbers = (HdhrEmu.psipParseTvct sec out.length).map Prod.snd ∧
        ∀ slot ∈ after.take result.toNat, slot.Terminated := by
  rw [psipParseTvct, sectionTotal_eq, ok_bind]
  have names := @tableName_psipParseTvct sec out.length
  rw [HdhrEmu.psipParseTvct] at names ⊢
  cases found : HdhrEmu.sectionTotal sec with
  | none => exact ⟨_, rfl, ⟨rfl, rfl⟩, rfl, fun _ member => by simp at member⟩
  | some total =>
      obtain ⟨atLeast, there⟩ := sectionTotal_bounds found
      rw [found, Option.map_some] at names
      dsimp only
      rw [load_eq (by omega) (by omega) 0, ok_bind, load_eq (by omega) (by omega) 0, ok_bind,
        load_eq (by omega) (by omega) 0, ok_bind, tvctLoop_eq (by omega) (Nat.zero_le _), ok_bind]
      have room := length_tvctEntries sec (total - 4) (min (sec.getD 9 0).toNat out.length) 10
      have all := names rfl
      dsimp only at all
      simp only [Option.map_some, Nat.sub_zero]
      generalize tvctEntries sec (total - 4) (min (sec.getD 9 0).toNat out.length) 10 = entries at *
      have small : (entries.map TvctSlot.of).length ≤ out.length := by
        rw [List.length_map]
        omega
      have stored := stored_overwrite small
      rw [List.length_map] at stored
      refine ⟨_, rfl, stored, rfl, ?_⟩
      have written : (overwrite out 0 (entries.map TvctSlot.of)).take entries.length =
          entries.map TvctSlot.of := by
        rw [overwrite_zero]
        exact List.take_left' (List.length_map _)
      rw [Nat.zero_add, Int.toNat_natCast, written, List.forall_mem_map]
      exact fun entry member => TvctSlot.terminated_of (all entry member)

end PsipMemory

open PsipMemory

/-- However malformed a section is, the parsers end without a forbidden access,
and what they have written is what the section says. -/
theorem psip_parsers_stay_inside (sec : List UInt8) (pats : List PatEntry) (pmt : PmtMemory)
    (channels : List TvctSlot) :
    (Returns (PsipMemory.psipParsePat sec pats) fun (after, result) =>
      Stored pats (psipParsePat sec pats.length) after result) ∧
    (Returns (PsipMemory.psipParsePmt sec pmt) fun (after, result) =>
      match psipParsePmt sec with
      | none => result = -1 ∧ after = pmt
      | some info =>
          result = info.streams.length ∧ info.streams.length ≤ 32 ∧ after = PmtMemory.of info) ∧
    Returns (PsipMemory.psipParseTvct sec channels) fun (after, numbers, result) =>
      Stored channels ((psipParseTvct sec channels.length).map fun parsed =>
          parsed.1.map TvctSlot.of) after result ∧
        numbers = (psipParseTvct sec channels.length).map Prod.snd ∧
        ∀ slot ∈ after.take result.toNat, slot.Terminated :=
  ⟨psipParsePat_returns sec pats, psipParsePmt_returns sec pmt, psipParseTvct_returns sec channels⟩

end HdhrEmu
