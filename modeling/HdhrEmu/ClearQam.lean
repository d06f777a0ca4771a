import HdhrEmu.ChannelTable
import HdhrEmu.ChannelValue
import HdhrEmu.ScanPsip

/-!
# Cable muxes without virtual channels

The programs of such a mux are entered under its channel number and their own.
Every frequency that is not in the active map has the channel number 0, so two
of them share their keys.
-/

namespace HdhrEmu

open CString

namespace ChannelDb

/-- An addition leaves every other key. -/
theorem find?_add_of_ne {db : ChannelDb} {ch : DvbChannel} {key : ChannelKey}
    (other : key ≠ ch.key) : (db.add ch).find? key = db.find? key := by
  cases accepted : db.accepts ch with
  | false => rw [add_of_refused accepted]
  | true => rw [find?_add accepted, if_neg other]

theorem find?_addAll_of_ne {db : ChannelDb} {channels : List DvbChannel} {key : ChannelKey}
    (others : ∀ ch ∈ channels, key ≠ ch.key) : (db.addAll channels).find? key = db.find? key := by
  induction channels generalizing db with
  | nil => rfl
  | cons ch channels ih =>
      obtain ⟨other, later⟩ := List.forall_mem_cons.mp others
      rw [addAll, List.foldl_cons, ← addAll, ih later, find?_add_of_ne other]

end ChannelDb

/-- A mux that is scanned as a cable mux and has no virtual channels, with the
value that asked for it. -/
structure QamMux (channelmap : CStr) where
  value : CStr
  parsed : ChannelValue
  accepted : parseChannelValue channelmap value = some parsed
  reads : MuxReads
  noVct : readVct reads = []

namespace QamMux

variable {channelmap : CStr}

def scan (mux : QamMux channelmap) : ScanTarget :=
  ⟨mux.parsed.rfChannel, mux.parsed.freq, .qam⟩

/-- The channels of `add_channels_without_vct`. -/
def found (mux : QamMux channelmap) : List DvbChannel :=
  scannedChannels mux.scan mux.reads

/-- The program numbers whose maps were read. -/
def programs (mux : QamMux channelmap) : List UInt16 :=
  (pmtSections (patOf mux.reads) mux.reads).map PmtCacheEntry.programNumber

theorem found_eq (mux : QamMux channelmap) :
    mux.found = (pmtSections (patOf mux.reads) mux.reads).map
      (channelWithoutVct mux.scan (patOf mux.reads)) := by
  rw [found, scannedChannels_eq, mux.noVct]
  exact if_pos rfl

/-- A channel is entered under the number of the mux and its own. -/
theorem mem_found {mux : QamMux channelmap} {ch : DvbChannel} (member : ch ∈ mux.found) :
    ch.programNumber ∈ mux.programs ∧ ch.frequencyHz = mux.parsed.freq ∧
      ch.key = ⟨mux.parsed.rfChannel, ch.programNumber.toNat⟩ := by
  rw [found_eq] at member
  obtain ⟨entry, read, rfl⟩ := List.mem_map.mp member
  exact ⟨List.mem_map_of_mem read, rfl, rfl⟩

theorem exists_found {mux : QamMux channelmap} {programNumber : UInt16}
    (member : programNumber ∈ mux.programs) :
    ∃ ch ∈ mux.found, ch.frequencyHz = mux.parsed.freq ∧ ch.programNumber = programNumber ∧
      ch.key = ⟨mux.parsed.rfChannel, programNumber.toNat⟩ := by
  obtain ⟨entry, read, rfl⟩ := List.mem_map.mp member
  refine ⟨channelWithoutVct mux.scan (patOf mux.reads) entry, ?_, rfl, rfl, rfl⟩
  rw [found_eq]
  exact List.mem_map_of_mem read

end QamMux

section Muxes

variable {channelmap : CStr} {muxes : List (QamMux channelmap)}

/-- Channels of different frequencies or program numbers have different keys. -/
def SeparateKeys (muxes : List (QamMux channelmap)) : Prop :=
  ∀ first ∈ muxes, ∀ second ∈ muxes, ∀ ch ∈ first.found, ∀ other ∈ second.found,
    (ch.frequencyHz, ch.programNumber) ≠ (other.frequencyHz, other.programNumber) →
      ch.key ≠ other.key

/-- Scanning a mux leaves what is entered for the channels of another one. -/
def KeepsOthers (muxes : List (QamMux channelmap)) : Prop :=
  ∀ first ∈ muxes, ∀ second ∈ muxes, first.parsed.freq ≠ second.parsed.freq →
    ∀ ch ∈ first.found, ∀ db : ChannelDb,
      (dvbScanReadPsip second.scan second.reads db).1.find? ch.key = db.find? ch.key

/-- Muxes of different frequencies with a program number in common have
different channel numbers. -/
def NumberedApart (muxes : List (QamMux channelmap)) : Prop :=
  ∀ first ∈ muxes, ∀ second ∈ muxes, first.parsed.freq ≠ second.parsed.freq →
    (∃ programNumber ∈ first.programs, programNumber ∈ second.programs) →
      first.parsed.rfChannel ≠ second.parsed.rfChannel

/-- Muxes that are on the channels of the active map are numbered apart. -/
theorem numberedApart_of_on_map
    (onMap : ∀ mux ∈ muxes,
      resolveChannelInMap channelmap mux.parsed.rfChannel = mux.parsed.freq) :
    NumberedApart muxes := by
  intro first member second member' differs _ same
  apply differs
  rw [← onMap first member, ← onMap second member', same]

theorem separateKeys_of_numberedApart (apart : NumberedApart muxes) : SeparateKeys muxes := by
  intro first member second member' ch found other found' differs same
  obtain ⟨program, freq, key⟩ := QamMux.mem_found found
  obtain ⟨program', freq', key'⟩ := QamMux.mem_found found'
  rw [key, key', ChannelKey.mk.injEq, Int.natCast_inj, UInt16.toNat_inj] at same
  have frequencies : first.parsed.freq ≠ second.parsed.freq := by
    intro equal
    exact differs (by rw [freq, freq', equal, same.2])
  exact apart first member second member' frequencies ⟨_, program, same.2 ▸ program'⟩ same.1

theorem keepsOthers_of_separateKeys (separate : SeparateKeys muxes) : KeepsOthers muxes := by
  intro first member second member' differs ch found db
  rw [dvbScanReadPsip_eq]
  apply ChannelDb.find?_addAll_of_ne
  intro other found'
  apply separate first member second member' ch found other found'
  rw [(QamMux.mem_found found).2.1, (QamMux.mem_found found').2.1]
  exact fun same => differs (congrArg Prod.fst same)

theorem numberedApart_of_separateKeys (separate : SeparateKeys muxes) : NumberedApart muxes := by
  intro first member second member' differs shared same
  obtain ⟨programNumber, read, read'⟩ := shared
  obtain ⟨ch, found, freq, program, key⟩ := QamMux.exists_found read
  obtain ⟨other, found', freq', program', key'⟩ := QamMux.exists_found read'
  apply separate first member second member' ch found other found'
  · rw [freq, freq']
    exact fun equal => differs (congrArg Prod.fst equal)
  · rw [key, key', same]

end Muxes

/-- Cable muxes without virtual channels leave each other alone exactly when
the ones with a program number in common have different channel numbers. -/
theorem clear_qam_keys_separate_iff {channelmap : CStr} (muxes : List (QamMux channelmap)) :
    SeparateKeys muxes ∧ KeepsOthers muxes ↔ NumberedApart muxes := by
  constructor
  · exact fun both => numberedApart_of_separateKeys both.1
  · intro apart
    have separate := separateKeys_of_numberedApart apart
    exact ⟨separate, keepsOthers_of_separateKeys separate⟩

/-- One program whose video is on the PID. -/
def oneVideoProgram (videoPid : UInt8) : MuxReads where
  pat := some [0, 0xB0, 13, 0, 1, 0xC1, 0, 0, 0, 1, 0xE0, 0x30, 0, 0, 0, 0]
  filterOpens := fun _ => true
  pmts :=
    [(0, some [2, 0xB0, 18, 0, 1, 0xC1, 0, 0, 0xE0, videoPid, 0xF0, 0,
      0x02, 0xE0, videoPid, 0xF0, 0, 0, 0, 0, 0])]
  vcts := []

/-- A frequency that no channel of the map has. -/
def offMapMux : QamMux "us-cable".toList where
  value := "qam:100000000".toList
  parsed := ⟨100000000, 0⟩
  accepted := by decide +kernel
  reads := oneVideoProgram 0x41
  noVct := rfl

/-- Another one. -/
def otherOffMapMux : QamMux "us-cable".toList where
  value := "qam:200000000".toList
  parsed := ⟨200000000, 0⟩
  accepted := by decide +kernel
  reads := oneVideoProgram 0x42
  noVct := rfl

/-- The program of the second mux takes the place of the one of the first. -/
theorem off_map_mux_overwrites :
    ¬ (SeparateKeys [offMapMux, otherOffMapMux] ∧ KeepsOthers [offMapMux, otherOffMapMux]) := by
  rintro ⟨-, keeps⟩
  have before : (ChannelDb.empty.addAll offMapMux.found).find? ⟨0, 1⟩ = offMapMux.found.head? := by
    decide +kernel
  have found : ∀ ch ∈ offMapMux.found, ch.key = ⟨0, 1⟩ := by decide +kernel
  have after : (dvbScanReadPsip otherOffMapMux.scan otherOffMapMux.reads
      (ChannelDb.empty.addAll offMapMux.found)).1.find? ⟨0, 1⟩ = otherOffMapMux.found.head? := by
    decide +kernel
  have differ : offMapMux.found.head? ≠ otherOffMapMux.found.head? := by decide +kernel
  have some : offMapMux.found ≠ [] := by decide +kernel
  obtain ⟨ch, member⟩ := List.exists_mem_of_ne_nil _ some
  have kept := keeps offMapMux List.mem_cons_self otherOffMapMux
    (List.mem_cons_of_mem _ List.mem_cons_self) (by decide) ch member
    (ChannelDb.empty.addAll offMapMux.found)
  rw [found ch member, before, after] at kept
  exact differ kept.symm

end HdhrEmu
