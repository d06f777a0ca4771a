import HdhrEmu.Channel
import HdhrEmu.Psip
import Mathlib.Data.List.Perm.Subperm

/-!
# Reading the tables of a mux

After a lock, a scan reads the program association table, the program map of
every program at once, and the virtual channel table, and joins the three by
program number.  The number of a program map is that of the filter it came
through; the number in the section itself is parsed and not looked at.
-/

namespace HdhrEmu

/-- What is scanned. -/
structure ScanTarget where
  rfChannel : Int
  freqHz : UInt32
  delivery : DeliverySystem
  deriving DecidableEq, Repr

/-- What the demux gives: the section with the program association, whether the
filter for each of its entries can be opened, what is read from the filters in
which order (a failed read is `none`), and what is read of virtual channels. -/
structure MuxReads where
  pat : Option (List UInt8)
  filterOpens : Nat → Bool
  pmts : List (Nat × Option (List UInt8))
  vcts : List (Option (List UInt8))

structure PmtCacheEntry where
  programNumber : UInt16
  pmt : PmtInfo
  deriving DecidableEq, Repr

/-- The filters that could be opened, as the entries they were opened for. -/
def pmtFilters (pat : List PatEntry) (filterOpens : Nat → Bool) : List PatEntry :=
  ((pat.take patMaxEntries).zipIdx.filter fun entry => filterOpens entry.2).map Prod.fst

/-- The loop variables of `read_pmts_concurrent`. -/
structure PmtReading where
  done : List Nat := []
  cache : List PmtCacheEntry := []

/-- One filter has something to read. -/
def PmtReading.read (filters : List PatEntry) (reading : PmtReading)
    (delivery : Nat × Option (List UInt8)) : PmtReading :=
  match filters[delivery.1]? with
  | none => reading
  | some filter =>
      if delivery.1 ∈ reading.done then reading
      else
        { done := delivery.1 :: reading.done
          cache :=
            match delivery.2.bind psipParsePmt with
            | none => reading.cache
            | some pmt =>
                if reading.cache.length < patMaxEntries then
                  reading.cache ++ [⟨filter.programNumber, pmt⟩]
                else reading.cache }

def readPmtsConcurrent (pat : List PatEntry) (reads : MuxReads) : List PmtCacheEntry :=
  (reads.pmts.foldl (PmtReading.read (pmtFilters pat reads.filterOpens)) {}).cache

/-- The loop of `read_vct`, for as many attempts; an empty read is a timeout. -/
def readVctLoop : Nat → List (Option (List UInt8)) → List UInt8 → List TvctEntry → List TvctEntry
  | 0, _, _, out => out
  | _ + 1, [], _, out => out
  | _ + 1, none :: _, _, out => out
  | _ + 1, some [] :: _, _, out => out
  | attempts + 1, some sec :: reads, seen, out =>
      if tvctMaxChannels ≤ out.length then out
      else
        match psipParseTvct sec (tvctMaxChannels - out.length) with
        | none => readVctLoop attempts reads seen out
        | some (entries, number, last) =>
            if number ∈ seen then readVctLoop attempts reads seen out
            else if (List.range (last.toNat + 1)).all fun s => UInt8.ofNat s ∈ number :: seen then
              out ++ entries
            else readVctLoop attempts reads (number :: seen) (out ++ entries)

def readVct (reads : MuxReads) : List TvctEntry :=
  readVctLoop 8 reads.vcts [] []

/-- The PID of a program in the program association; zero if it has none. -/
def pmtPidOf (pat : List PatEntry) (programNumber : UInt16) : UInt16 :=
  ((pat.find? fun entry => entry.programNumber = programNumber).map PatEntry.pmtPid).getD 0

/-- The fields that both kinds of channels take from the tables. -/
def pmtChannel (scan : ScanTarget) (pat : List PatEntry) (programNumber : UInt16)
    (pmt : PmtInfo) : DvbChannel :=
  let av := psipPmtPickAv pmt
  { DvbChannel.zero with
    rfChannel := scan.rfChannel
    frequencyHz := scan.freqHz
    programNumber
    pmtPid := pmtPidOf pat programNumber
    pcrPid := pmt.pcrPid
    videoPid := av.videoPid
    videoStreamType := av.videoStreamType
    audioPid := av.audioPid
    audioStreamType := av.audioStreamType }

/-- A channel of `add_channels_without_vct`. -/
def channelWithoutVct (scan : ScanTarget) (pat : List PatEntry) (entry : PmtCacheEntry) :
    DvbChannel :=
  { pmtChannel scan pat entry.programNumber entry.pmt with
    major := scan.rfChannel
    minor := entry.programNumber.toNat
    delivery := .qam
    shortName := (CString.decimal (UInt32.ofInt scan.rfChannel).toNat ++
      '-' :: CString.decimal entry.programNumber.toNat).take 15 }

/-- A channel of a virtual channel table. -/
def channelOfVct (scan : ScanTarget) (pat : List PatEntry) (entry : TvctEntry) (pmt : PmtInfo) :
    DvbChannel :=
  { pmtChannel scan pat entry.programNumber pmt with
    major := entry.majorChannelNumber
    minor := entry.minorChannelNumber
    delivery := scan.delivery
    shortName := entry.shortName.take 15
    channelTsid := entry.channelTsid }

/-- The first program map that was cached for a program. -/
def cachedPmt (cache : List PmtCacheEntry) (programNumber : UInt16) : Option PmtInfo :=
  (cache.find? fun entry => entry.programNumber = programNumber).map PmtCacheEntry.pmt

/-- The channels that `dvb_scan_read_psip` hands to `dvb_channel_db_add`. -/
def scannedChannels (scan : ScanTarget) (reads : MuxReads) : List DvbChannel :=
  match reads.pat.bind fun sec => psipParsePat sec patMaxEntries with
  | none | some [] => []
  | some pat =>
      let cache := readPmtsConcurrent pat reads
      match readVct reads with
      | [] => if scan.delivery = .qam then cache.map (channelWithoutVct scan pat) else []
      | vct =>
          (vct.filter fun entry => !entry.hidden).filterMap fun entry =>
            (cachedPmt cache entry.programNumber).map (channelOfVct scan pat entry)

/-- `dvb_scan_read_psip`: the database behind it, and the number of channels. -/
def dvbScanReadPsip (scan : ScanTarget) (reads : MuxReads) (db : ChannelDb) : ChannelDb × Nat :=
  (scannedChannels scan reads).foldl (fun (db, added) ch =>
    (db.add ch, if db.accepts ch then added + 1 else added)) (db, 0)

theorem ChannelDb.foldl_add (channels : List DvbChannel) (db : ChannelDb) (added : Nat) :
    (channels.foldl (fun (db, added) ch =>
      (db.add ch, if db.accepts ch then added + 1 else added)) (db, added)) =
      (db.addAll channels, added + (db.taken channels).length) := by
  induction channels generalizing db added with
  | nil => rfl
  | cons ch channels ih =>
      rw [List.foldl_cons, ih, taken]
      by_cases accepted : db.accepts ch = true
      · rw [if_pos accepted, if_pos accepted, List.length_cons, Nat.add_assoc, Nat.add_comm 1]
        rfl
      · rw [if_neg accepted, if_neg accepted]
        rfl

theorem dvbScanReadPsip_eq (scan : ScanTarget) (reads : MuxReads) (db : ChannelDb) :
    dvbScanReadPsip scan reads db =
      (db.addAll (scannedChannels scan reads), (db.taken (scannedChannels scan reads)).length) := by
  rw [dvbScanReadPsip, ChannelDb.foldl_add, Nat.zero_add]

theorem ChannelDb.length_add (db : ChannelDb) (ch : DvbChannel) :
    (db.add ch).channels.length ≤ db.channels.length + 1 := by
  rw [add]
  split
  · have kept := congrArg List.length (replace_keys ch db.channels)
    rw [List.length_map, List.length_map] at kept
    exact Nat.le_succ_of_le (Nat.le_of_eq kept)
  · split
    · exact Nat.le_of_eq (List.length_append)
    · exact Nat.le_succ _

/-- While there is room, every channel is taken. -/
theorem ChannelDb.taken_eq {db : ChannelDb} {channels : List DvbChannel}
    (room : db.channels.length + channels.length ≤ dvbChannelMax) :
    db.taken channels = channels := by
  induction channels generalizing db with
  | nil => rfl
  | cons ch channels ih =>
      rw [List.length_cons] at room
      have accepted : db.accepts ch = true := by
        rw [accepts, decide_eq_true_iff]
        right
        omega
      have grown := db.length_add ch
      rw [taken, if_pos accepted, ih (by omega)]

/-- The first read through each filter. -/
def firstReads : List (Nat × Option (List UInt8)) → List (Nat × Option (List UInt8))
  | [] => []
  | delivery :: later => delivery :: (firstReads later).filter fun read => read.1 ≠ delivery.1

/-- The section of a read, with the program that its filter was opened for. -/
def sectionOf (filters : List PatEntry) (read : Nat × Option (List UInt8)) :
    Option PmtCacheEntry := do
  let filter ← filters[read.1]?
  let pmt ← read.2.bind psipParsePmt
  some ⟨filter.programNumber, pmt⟩

/-- The sections that are read, in the order in which they arrive. -/
def pmtSections (pat : List PatEntry) (reads : MuxReads) : List PmtCacheEntry :=
  (firstReads reads.pmts).filterMap (sectionOf (pmtFilters pat reads.filterOpens))

/-- The slots in `done` are filters, and none of them gave two entries. -/
structure PmtReading.Sound (filters : List PatEntry) (reading : PmtReading) : Prop where
  nodup : reading.done.Nodup
  opened : ∀ slot ∈ reading.done, slot < filters.length
  cached : reading.cache.length ≤ reading.done.length

theorem length_pmtFilters (pat : List PatEntry) (filterOpens : Nat → Bool) :
    (pmtFilters pat filterOpens).length ≤ patMaxEntries := by
  rw [pmtFilters, List.length_map]
  apply Nat.le_trans (List.length_filter_le _ _)
  rw [List.length_zipIdx, List.length_take]
  exact Nat.min_le_left _ _

theorem PmtReading.Sound.length_le {filters : List PatEntry} {reading : PmtReading}
    (sound : reading.Sound filters) : reading.done.length ≤ filters.length := by
  have inside : reading.done ⊆ List.range filters.length := by
    intro slot member
    exact List.mem_range.mpr (sound.opened slot member)
  have counted := (sound.nodup.subperm inside).length_le
  rwa [List.length_range] at counted

/-- A filter that has given nothing yet leaves room for one more entry. -/
theorem PmtReading.Sound.room {filters : List PatEntry} {reading : PmtReading} {slot : Nat}
    (sound : reading.Sound filters) (small : filters.length ≤ patMaxEntries)
    (isOpen : slot < filters.length) (new : slot ∉ reading.done) :
    reading.cache.length < patMaxEntries := by
  have more : (PmtReading.mk (slot :: reading.done) reading.cache).Sound filters :=
    ⟨List.nodup_cons.mpr ⟨new, sound.nodup⟩, List.forall_mem_cons.mpr ⟨isOpen, sound.opened⟩,
      Nat.le_succ_of_le sound.cached⟩
  have counted := more.length_le
  rw [List.length_cons] at counted
  have cached := sound.cached
  omega

/-- A filter that was read already, or that there is not, gives nothing. -/
theorem PmtReading.read_old {filters : List PatEntry} {reading : PmtReading}
    {delivery : Nat × Option (List UInt8)}
    (old : delivery.1 < filters.length → delivery.1 ∈ reading.done) :
    reading.read filters delivery = reading := by
  rw [read]
  by_cases isOpen : delivery.1 < filters.length
  · rw [List.getElem?_eq_getElem isOpen]
    exact if_pos (old isOpen)
  · rw [List.getElem?_eq_none (Nat.le_of_not_lt isOpen)]

/-- The first read through a filter is cached: there is always room for it. -/
theorem PmtReading.read_new {filters : List PatEntry} {reading : PmtReading}
    {delivery : Nat × Option (List UInt8)} (sound : reading.Sound filters)
    (small : filters.length ≤ patMaxEntries) (isOpen : delivery.1 < filters.length)
    (new : delivery.1 ∉ reading.done) :
    reading.read filters delivery =
      { done := delivery.1 :: reading.done
        cache := reading.cache ++ (sectionOf filters delivery).toList } := by
  have room := sound.room small isOpen new
  rw [read, sectionOf, List.getElem?_eq_getElem isOpen]
  cases parsed : delivery.2.bind psipParsePmt with
  | none => simp [new]
  | some pmt => simp [new, room]

theorem PmtReading.Sound.read {filters : List PatEntry} {reading : PmtReading}
    (sound : reading.Sound filters) (small : filters.length ≤ patMaxEntries)
    (delivery : Nat × Option (List UInt8)) : (reading.read filters delivery).Sound filters := by
  by_cases new : delivery.1 < filters.length ∧ delivery.1 ∉ reading.done
  · obtain ⟨isOpen, new⟩ := new
    have cached := sound.cached
    have one : (sectionOf filters delivery).toList.length ≤ 1 := by
      cases sectionOf filters delivery <;> simp
    rw [PmtReading.read_new sound small isOpen new]
    constructor
    · exact List.nodup_cons.mpr ⟨new, sound.nodup⟩
    · exact List.forall_mem_cons.mpr ⟨isOpen, sound.opened⟩
    · rw [List.length_append, List.length_cons]
      omega
  · rw [PmtReading.read_old fun isOpen => by_contra fun fresh => new ⟨isOpen, fresh⟩]
    exact sound

/-- The loop caches the first section through each filter. -/
theorem PmtReading.foldl_read {filters : List PatEntry} {reading : PmtReading}
    (deliveries : List (Nat × Option (List UInt8))) (sound : reading.Sound filters)
    (small : filters.length ≤ patMaxEntries) :
    (deliveries.foldl (PmtReading.read filters) reading).cache =
      reading.cache ++ (firstReads deliveries).filterMap fun read =>
        if read.1 ∈ reading.done then none else sectionOf filters read := by
  induction deliveries generalizing reading with
  | nil => exact (List.append_nil _).symm
  | cons delivery later ih =>
      rw [List.foldl_cons, ih (sound.read small delivery), firstReads, List.filterMap_cons,
        List.filterMap_filter]
      by_cases new : delivery.1 < filters.length ∧ delivery.1 ∉ reading.done
      · have rest : ∀ read ∈ firstReads later,
            (if read.1 ∈ delivery.1 :: reading.done then none else sectionOf filters read) =
              if decide (read.1 ≠ delivery.1) then
                if read.1 ∈ reading.done then none else sectionOf filters read
              else none := by
          intro read _
          by_cases same : read.1 = delivery.1
          · simp [same]
          · simp [same]
        rw [PmtReading.read_new sound small new.1 new.2, List.filterMap_congr rest, if_neg new.2]
        cases sectionOf filters delivery with
        | none => simp
        | some entry => simp
      · have old : delivery.1 < filters.length → delivery.1 ∈ reading.done :=
          fun isOpen => by_contra fun fresh => new ⟨isOpen, fresh⟩
        -- What is read of this slot is not looked at, now or later.
        have dropped : ∀ read : Nat × Option (List UInt8), read.1 = delivery.1 →
            (if read.1 ∈ reading.done then none else sectionOf filters read) = none := by
          intro read slot
          by_cases isOpen : delivery.1 < filters.length
          · rw [if_pos (slot ▸ old isOpen)]
          · rw [sectionOf, slot, List.getElem?_eq_none (Nat.le_of_not_lt isOpen)]
            exact ite_self none
        have rest : ∀ read ∈ firstReads later,
            (if read.1 ∈ reading.done then none else sectionOf filters read) =
              if decide (read.1 ≠ delivery.1) then
                if read.1 ∈ reading.done then none else sectionOf filters read
              else none := by
          intro read _
          by_cases same : read.1 = delivery.1
          · rw [dropped read same]
            exact (ite_self none).symm
          · rw [decide_eq_true same, if_pos rfl]
        rw [PmtReading.read_old old, List.filterMap_congr rest, dropped delivery rfl]

theorem PmtReading.Sound.foldl {filters : List PatEntry} {reading : PmtReading}
    (sound : reading.Sound filters) (small : filters.length ≤ patMaxEntries)
    (deliveries : List (Nat × Option (List UInt8))) :
    (deliveries.foldl (PmtReading.read filters) reading).Sound filters := by
  induction deliveries generalizing reading with
  | nil => exact sound
  | cons delivery later ih => exact ih (sound.read small delivery)

theorem PmtReading.sound_empty (filters : List PatEntry) : ({} : PmtReading).Sound filters :=
  ⟨List.nodup_nil, fun _ member => (nomatch member), Nat.le_refl 0⟩

theorem length_readPmtsConcurrent (pat : List PatEntry) (reads : MuxReads) :
    (readPmtsConcurrent pat reads).length ≤ patMaxEntries := by
  have small := length_pmtFilters pat reads.filterOpens
  have sound := (PmtReading.sound_empty _).foldl small reads.pmts
  exact Nat.le_trans sound.cached (Nat.le_trans sound.length_le small)

theorem readPmtsConcurrent_eq (pat : List PatEntry) (reads : MuxReads) :
    readPmtsConcurrent pat reads = pmtSections pat reads := by
  rw [readPmtsConcurrent, PmtReading.foldl_read _ (PmtReading.sound_empty _)
    (length_pmtFilters pat reads.filterOpens), List.nil_append, pmtSections]
  simp

/-- The program association that the scan reads. -/
def patOf (reads : MuxReads) : List PatEntry :=
  (reads.pat.bind fun sec => psipParsePat sec patMaxEntries).getD []

/-- Two program maps with the same PIDs for a channel. -/
def SameMapPids (first second : PmtInfo) : Prop :=
  first.pcrPid = second.pcrPid ∧
    (psipPmtPickAv first).videoPid = (psipPmtPickAv second).videoPid ∧
    (psipPmtPickAv first).audioPid = (psipPmtPickAv second).audioPid

/-- A section of program `programNumber` itself was read that gives these PIDs. -/
def OwnSection (reads : MuxReads) (programNumber : UInt16) (pmt : PmtInfo) : Prop :=
  ∃ own ∈ pmtSections (patOf reads) reads, own.pmt.programNumber = programNumber ∧
    SameMapPids pmt own.pmt

/-- The PIDs of a channel are those of a section of its own program, and its
PMT PID is the one that the association gives for it. -/
def CarriesOwnPids (reads : MuxReads) (ch : DvbChannel) : Prop :=
  (∃ own ∈ pmtSections (patOf reads) reads, own.pmt.programNumber = ch.programNumber ∧
    ch.pcrPid = own.pmt.pcrPid ∧ ch.videoPid = (psipPmtPickAv own.pmt).videoPid ∧
    ch.audioPid = (psipPmtPickAv own.pmt).audioPid) ∧
  ((patOf reads).find? fun entry => entry.programNumber = ch.programNumber).map PatEntry.pmtPid =
    some ch.pmtPid

/-- The sections that the channels of a program are made from: the first one
through a filter of a program that the virtual channels show, and without
virtual channels on cable every one. -/
inductive MadeFrom (scan : ScanTarget) (reads : MuxReads) : UInt16 → PmtInfo → Prop
  | shown {entry : TvctEntry} {pmt : PmtInfo} (listed : entry ∈ readVct reads)
      (visible : entry.hidden = false)
      (first : cachedPmt (pmtSections (patOf reads) reads) entry.programNumber = some pmt) :
      MadeFrom scan reads entry.programNumber pmt
  | fallback {arrived : PmtCacheEntry} (noVct : readVct reads = []) (qam : scan.delivery = .qam)
      (read : arrived ∈ pmtSections (patOf reads) reads) :
      MadeFrom scan reads arrived.programNumber arrived.pmt

/-- A channel of program `programNumber` made from `pmt`. -/
structure DvbChannel.Made (ch : DvbChannel) (pat : List PatEntry) (programNumber : UInt16)
    (pmt : PmtInfo) : Prop where
  program : ch.programNumber = programNumber
  pmtPid : ch.pmtPid = pmtPidOf pat programNumber
  pcrPid : ch.pcrPid = pmt.pcrPid
  videoPid : ch.videoPid = (psipPmtPickAv pmt).videoPid
  audioPid : ch.audioPid = (psipPmtPickAv pmt).audioPid

theorem made_channelWithoutVct (scan : ScanTarget) (pat : List PatEntry) (entry : PmtCacheEntry) :
    (channelWithoutVct scan pat entry).Made pat entry.programNumber entry.pmt :=
  ⟨rfl, rfl, rfl, rfl, rfl⟩

theorem made_channelOfVct (scan : ScanTarget) (pat : List PatEntry) (entry : TvctEntry)
    (pmt : PmtInfo) : (channelOfVct scan pat entry pmt).Made pat entry.programNumber pmt :=
  ⟨rfl, rfl, rfl, rfl, rfl⟩

theorem pmtSections_nil (reads : MuxReads) : pmtSections [] reads = [] := by
  rw [pmtSections, List.filterMap_eq_nil_iff]
  intro read _
  rfl

theorem scannedChannels_eq (scan : ScanTarget) (reads : MuxReads) :
    scannedChannels scan reads =
      match readVct reads with
      | [] =>
          if scan.delivery = .qam then
            (pmtSections (patOf reads) reads).map (channelWithoutVct scan (patOf reads))
          else []
      | vct =>
          (vct.filter fun entry => !entry.hidden).filterMap fun entry =>
            (cachedPmt (pmtSections (patOf reads) reads) entry.programNumber).map
              (channelOfVct scan (patOf reads) entry) := by
  -- Without a program association both branches are empty.
  have nothing : patOf reads = [] → [] =
      match readVct reads with
      | [] =>
          if scan.delivery = .qam then
            (pmtSections (patOf reads) reads).map (channelWithoutVct scan (patOf reads))
          else []
      | vct =>
          (vct.filter fun entry => !entry.hidden).filterMap fun entry =>
            (cachedPmt (pmtSections (patOf reads) reads) entry.programNumber).map
              (channelOfVct scan (patOf reads) entry) := by
    intro none
    rw [none, pmtSections_nil]
    split
    · exact (ite_self []).symm
    · exact (List.filterMap_eq_nil_iff.mpr fun _ _ => rfl).symm
  unfold scannedChannels
  cases parsed : reads.pat.bind fun sec => psipParsePat sec patMaxEntries with
  | none => exact nothing (by rw [patOf, parsed]; rfl)
  | some pat =>
      have same : patOf reads = pat := by rw [patOf, parsed]; rfl
      cases pat with
      | nil => exact nothing same
      | cons entry rest =>
          rw [same]
          simp only [readPmtsConcurrent_eq]

/-- Every section comes through a filter of the association. -/
theorem mem_pat_of_mem_pmtSections {pat : List PatEntry} {reads : MuxReads}
    {arrived : PmtCacheEntry} (read : arrived ∈ pmtSections pat reads) :
    ∃ entry ∈ pat, entry.programNumber = arrived.programNumber := by
  obtain ⟨delivery, -, made⟩ := List.mem_filterMap.mp read
  obtain ⟨filter, isOpen, made⟩ := Option.bind_eq_some_iff.mp made
  obtain ⟨pmt, -, made⟩ := Option.bind_eq_some_iff.mp made
  cases made
  have member := List.mem_of_getElem? isOpen
  rw [pmtFilters] at member
  obtain ⟨indexed, kept, rfl⟩ := List.mem_map.mp member
  have taken := List.fst_mem_of_mem_zipIdx (List.mem_filter.mp kept).1
  exact ⟨indexed.1, List.mem_of_mem_take taken, rfl⟩

theorem mem_of_cachedPmt {cache : List PmtCacheEntry} {programNumber : UInt16} {pmt : PmtInfo}
    (cached : cachedPmt cache programNumber = some pmt) : ⟨programNumber, pmt⟩ ∈ cache := by
  obtain ⟨entry, found, rfl⟩ := Option.map_eq_some_iff.mp cached
  have program : entry.programNumber = programNumber := by simpa using List.find?_some found
  exact program ▸ List.mem_of_find?_eq_some found

theorem MadeFrom.mem {scan : ScanTarget} {reads : MuxReads} {programNumber : UInt16}
    {pmt : PmtInfo} (made : MadeFrom scan reads programNumber pmt) :
    ⟨programNumber, pmt⟩ ∈ pmtSections (patOf reads) reads := by
  cases made with
  | shown listed visible first => exact mem_of_cachedPmt first
  | fallback noVct qam read => exact read

/-- Every channel is made from a section that `MadeFrom` names. -/
theorem made_of_mem_scannedChannels {scan : ScanTarget} {reads : MuxReads} {ch : DvbChannel}
    (member : ch ∈ scannedChannels scan reads) :
    ∃ programNumber pmt, MadeFrom scan reads programNumber pmt ∧
      ch.Made (patOf reads) programNumber pmt := by
  rw [scannedChannels_eq] at member
  split at member
  · rename_i noVct
    by_cases qam : scan.delivery = .qam
    · rw [if_pos qam] at member
      obtain ⟨arrived, read, rfl⟩ := List.mem_map.mp member
      exact ⟨_, _, .fallback noVct qam read, made_channelWithoutVct _ _ _⟩
    · rw [if_neg qam] at member
      exact absurd member List.not_mem_nil
  · obtain ⟨entry, shown, made⟩ := List.mem_filterMap.mp member
    obtain ⟨pmt, first, rfl⟩ := Option.map_eq_some_iff.mp made
    obtain ⟨listed, visible⟩ := List.mem_filter.mp shown
    exact ⟨_, _, .shown listed (by simpa using visible) first, made_channelOfVct _ _ _ _⟩

/-- And each of these sections makes one. -/
theorem MadeFrom.channel {scan : ScanTarget} {reads : MuxReads} {programNumber : UInt16}
    {pmt : PmtInfo} (made : MadeFrom scan reads programNumber pmt) :
    ∃ ch ∈ scannedChannels scan reads, ch.Made (patOf reads) programNumber pmt := by
  rw [scannedChannels_eq]
  cases made with
  | @shown entry pmt listed visible first =>
      refine ⟨channelOfVct scan (patOf reads) entry pmt, ?_, made_channelOfVct _ _ _ _⟩
      split
      · rename_i noVct
        rw [noVct] at listed
        exact absurd listed List.not_mem_nil
      · apply List.mem_filterMap.mpr
        refine ⟨entry, List.mem_filter.mpr ⟨listed, by simp [visible]⟩, ?_⟩
        rw [first]
        rfl
  | @fallback arrived noVct qam read =>
      refine ⟨channelWithoutVct scan (patOf reads) arrived, ?_, made_channelWithoutVct _ _ _⟩
      rw [noVct]
      simp only [qam, if_true]
      exact List.mem_map_of_mem read

theorem length_psipParseTvct {sec : List UInt8} {room : Nat}
    {parsed : List TvctEntry × UInt8 × UInt8} (read : psipParseTvct sec room = some parsed) :
    parsed.1.length ≤ room := by
  obtain ⟨total, -, rfl⟩ := Option.map_eq_some_iff.mp read
  exact Nat.le_trans (length_tvctEntries _ _ _ _) (Nat.min_le_right _ _)

theorem length_readVctLoop {attempts : Nat} {reads : List (Option (List UInt8))}
    {seen : List UInt8} {out : List TvctEntry} (bound : out.length ≤ tvctMaxChannels) :
    (readVctLoop attempts reads seen out).length ≤ tvctMaxChannels := by
  have appended : ∀ {sec : List UInt8} {out entries : List TvctEntry} {number last : UInt8},
      out.length ≤ tvctMaxChannels →
      psipParseTvct sec (tvctMaxChannels - out.length) = some (entries, number, last) →
      (out ++ entries).length ≤ tvctMaxChannels := by
    intro sec out entries number last bound parsed
    have few := length_psipParseTvct parsed
    rw [List.length_append]
    exact (Nat.le_sub_iff_add_le' bound).mp few
  fun_induction readVctLoop attempts reads seen out with
  | case1 | case2 | case3 | case4 | case5 => exact bound
  | case6 _ _ _ _ _ _ _ _ ih => exact ih bound
  | case7 _ _ _ _ _ _ _ _ _ _ _ _ ih => exact ih bound
  | case8 _ _ _ _ _ _ _ _ _ _ parsed => exact appended bound parsed
  | case9 _ _ _ _ _ _ _ _ _ _ parsed _ _ ih => exact ih (appended bound parsed)

/-- A scan of a mux never finds more channels than an empty table takes. -/
theorem length_scannedChannels (scan : ScanTarget) (reads : MuxReads) :
    (scannedChannels scan reads).length ≤ dvbChannelMax := by
  rw [scannedChannels_eq, ← readPmtsConcurrent_eq]
  split
  · split
    · rw [List.length_map]
      exact Nat.le_trans (length_readPmtsConcurrent _ _) (by decide)
    · exact Nat.zero_le _
  · have listed : (readVct reads).length ≤ tvctMaxChannels := length_readVctLoop (Nat.zero_le _)
    apply Nat.le_trans (List.length_filterMap_le _ _)
    apply Nat.le_trans (List.length_filter_le _ _)
    exact Nat.le_trans listed (by decide)

theorem pmtPid_of_made {scan : ScanTarget} {reads : MuxReads} {ch : DvbChannel}
    {programNumber : UInt16} {pmt : PmtInfo} (source : MadeFrom scan reads programNumber pmt)
    (made : ch.Made (patOf reads) programNumber pmt) :
    ((patOf reads).find? fun entry => entry.programNumber = ch.programNumber).map
      PatEntry.pmtPid = some ch.pmtPid := by
  rw [made.program, made.pmtPid, pmtPidOf]
  cases found : (patOf reads).find? fun entry => entry.programNumber = programNumber with
  | some entry => rfl
  | none =>
      obtain ⟨entry, member, same⟩ := mem_pat_of_mem_pmtSections source.mem
      have differs := List.find?_eq_none.mp found entry member
      simp [same] at differs

/-- Whatever is in the database, each channel that the scan of a mux adds has
the PIDs of its own program, exactly if the sections that channels are made
from give the PIDs that a section of the program itself gives. -/
theorem scanned_pids_own_iff (scan : ScanTarget) (reads : MuxReads) :
    (∀ db : ChannelDb, ∀ ch ∈ db.taken (scannedChannels scan reads), CarriesOwnPids reads ch) ↔
      ∀ programNumber pmt, MadeFrom scan reads programNumber pmt →
        OwnSection reads programNumber pmt := by
  constructor
  · intro right programNumber pmt source
    obtain ⟨ch, member, made⟩ := source.channel
    have room : ChannelDb.empty.channels.length + (scannedChannels scan reads).length ≤
        dvbChannelMax := by
      rw [show ChannelDb.empty.channels.length = 0 from rfl, Nat.zero_add]
      exact length_scannedChannels scan reads
    rw [← ChannelDb.taken_eq room] at member
    obtain ⟨⟨own, read, number, pcr, video, audio⟩, -⟩ := right _ ch member
    refine ⟨own, read, number.trans made.program, ?_, ?_, ?_⟩
    · rw [← made.pcrPid, pcr]
    · rw [← made.videoPid, video]
    · rw [← made.audioPid, audio]
  · intro allOwn db ch member
    obtain ⟨programNumber, pmt, source, made⟩ :=
      made_of_mem_scannedChannels (ChannelDb.taken_subset member)
    obtain ⟨own, read, number, pcr, video, audio⟩ := allOwn _ _ source
    refine ⟨⟨own, read, number.trans made.program.symm, ?_, ?_, ?_⟩, pmtPid_of_made source made⟩
    · rw [made.pcrPid, pcr]
    · rw [made.videoPid, video]
    · rw [made.audioPid, audio]

/-- Two programs whose maps are both on PID 0x30; the map of the second is the
first thing that the filter of the first one lets through. -/
def sharedPidReads : MuxReads where
  pat := some [0, 0xB0, 17, 0, 1, 0xC1, 0, 0, 0, 1, 0xE0, 0x30, 0, 2, 0xE0, 0x30, 0, 0, 0, 0]
  filterOpens := fun _ => true
  pmts :=
    [(0, some [2, 0xB0, 23, 0, 2, 0xC1, 0, 0, 0xE0, 0x50, 0xF0, 0,
        0x02, 0xE0, 0x50, 0xF0, 0, 0x81, 0xE0, 0x51, 0xF0, 0, 0, 0, 0, 0]),
      (1, some [2, 0xB0, 23, 0, 1, 0xC1, 0, 0, 0xE0, 0x40, 0xF0, 0,
        0x02, 0xE0, 0x40, 0xF0, 0, 0x81, 0xE0, 0x41, 0xF0, 0, 0, 0, 0, 0])]
  vcts :=
    [some [0xC8, 0xF0, 43, 0, 1, 0xC1, 0, 0, 0, 1,
      0, 75, 0, 49, 0, 0, 0, 0, 0, 0, 0, 0, 0, 0, 0xF0, 0x1C, 0x01, 4, 0, 0, 0, 0, 0, 1, 0, 1,
      0x0D, 0xC2, 0, 1, 0xFC, 0, 0, 0, 0, 0]]

/-- The channel of the first program gets the PIDs of the second one. -/
theorem shared_pid_swapped :
    ¬ ∀ db : ChannelDb, ∀ ch ∈ db.taken (scannedChannels ⟨7, 177000000, .atscVsb⟩ sharedPidReads),
      CarriesOwnPids sharedPidReads ch := by
  intro right
  have found : (ChannelDb.empty.taken
      (scannedChannels ⟨7, 177000000, .atscVsb⟩ sharedPidReads)).any fun ch =>
        ch.programNumber = 1 ∧ ch.pcrPid = 0x50 := by decide +kernel
  have firstPcr : ∀ own ∈ pmtSections (patOf sharedPidReads) sharedPidReads,
      own.pmt.programNumber = 1 → own.pmt.pcrPid = 0x40 := by decide +kernel
  obtain ⟨ch, member, wrong⟩ := List.any_eq_true.mp found
  obtain ⟨number, pcr⟩ := of_decide_eq_true wrong
  obtain ⟨⟨own, read, program, same, -⟩, -⟩ := right _ ch member
  have ownPcr := firstPcr own read (program.trans number)
  rw [← same, pcr] at ownPcr
  exact absurd ownPcr (by decide)

end HdhrEmu
