import HdhrEmu.ChannelTable
import HdhrEmu.StoredChannels
import Mathlib.Data.List.DropRight

/-!
# Starting again with a cache

A start loads the channels of the last run from the cache file, scans all
frequencies on top of them and writes the file again.  Nothing is cleared in
between, so what the antenna no longer gives stays in the table; and starting
once more on the same air changes neither the table nor the file.
-/

namespace HdhrEmu

open CString

/-- What can be read on each frequency; there is no lock where it is `none`. -/
abbrev Air := UInt32 → Option MuxReads

/-- What a start meets: whether `scan_on_startup` is set, whether tuner 0 can be
claimed, and whether the frontend and both section filters can be opened. -/
structure Boot where
  scanOnStartup : Bool
  claimed : Bool
  opened : Bool
  air : Air

/-- One frequency of the loop of `scan_thread_main`, with the number of
channels so far. -/
def scanFrequency (air : Air) (state : ChannelDb × Nat) (entry : Int × UInt32) : ChannelDb × Nat :=
  match air entry.2 with
  | none => state
  | some reads =>
      let (db, added) := dvbScanReadPsip ⟨entry.1, entry.2, .atscVsb⟩ reads state.1
      (db, state.2 + added)

/-- The loop of `scan_thread_main`. -/
def scanFrequencies (air : Air) (db : ChannelDb) : ChannelDb × Nat :=
  atscFreqTable.foldl (scanFrequency air) (db, 0)

/-- `scan_thread_main`: the table and the cache file behind it. -/
def scanThreadMain (boot : Boot) (db : ChannelDb) (file : Option CStr) :
    ChannelDb × Option CStr :=
  if ¬ boot.claimed then (db, file)
  else
    let db := if boot.opened then (scanFrequencies boot.air db).1 else db
    (db, some (dvbChannelDbSave db))

/-- The part of `main` that is about channels; a file that is not there loads
nothing. -/
def startup (boot : Boot) (file : Option CStr) : ChannelDb × Option CStr :=
  let db :=
    match file with
    | none => ChannelDb.empty
    | some text => (dvbChannelDbLoad text ChannelDb.empty).1
  if boot.scanOnStartup then scanThreadMain boot db file else (db, file)

/-- The file that a number of starts leave, the first of them without one. -/
def cacheAfter (boots : List Boot) : Option CStr :=
  boots.foldl (fun file boot => (startup boot file).2) none

/-- All channels that the frequencies give, in the order of the scan. -/
def airChannels (air : Air) : List DvbChannel :=
  atscFreqTable.flatMap fun entry =>
    ((air entry.2).map (scannedChannels ⟨entry.1, entry.2, .atscVsb⟩)).getD []

theorem scanFrequency_fst (air : Air) (state : ChannelDb × Nat) (entry : Int × UInt32) :
    (scanFrequency air state entry).1 =
      state.1.addAll (((air entry.2).map (scannedChannels ⟨entry.1, entry.2, .atscVsb⟩)).getD []) := by
  rw [scanFrequency]
  cases air entry.2 with
  | none => rfl
  | some reads =>
      dsimp only
      rw [dvbScanReadPsip_eq]
      rfl

theorem ChannelDb.addAll_append (db : ChannelDb) (first second : List DvbChannel) :
    db.addAll (first ++ second) = (db.addAll first).addAll second :=
  List.foldl_append

/-- The scan adds what the frequencies give. -/
theorem scanFrequencies_fst (air : Air) (db : ChannelDb) :
    (scanFrequencies air db).1 = db.addAll (airChannels air) := by
  have loop : ∀ (table : List (Int × UInt32)) (state : ChannelDb × Nat),
      (table.foldl (scanFrequency air) state).1 = state.1.addAll (table.flatMap fun entry =>
        ((air entry.2).map (scannedChannels ⟨entry.1, entry.2, .atscVsb⟩)).getD []) := by
    intro table
    induction table with
    | nil => exact fun _ => rfl
    | cons entry table ih =>
        intro state
        rw [List.foldl_cons, ih, scanFrequency_fst, List.flatMap_cons, ChannelDb.addAll_append]
  exact loop atscFreqTable (db, 0)

theorem exists_lastWithKey {channels : List DvbChannel} {ch : DvbChannel}
    (member : ch ∈ channels) : ∃ last, lastWithKey channels ch.key = some last := by
  apply Option.isSome_iff_exists.mp
  rw [lastWithKey, List.find?_isSome]
  exact ⟨ch, List.mem_reverse.mpr member, beq_self_eq_true _⟩

namespace ChannelDb

/-- The keys in their order. -/
def keys (db : ChannelDb) : List ChannelKey :=
  db.channels.map DvbChannel.key

/-- The channel is in the table under its key, or there is no room for it. -/
def Settled (db : ChannelDb) (ch : DvbChannel) : Prop :=
  ch.key ∈ db.keys ∨ db.channels.length = dvbChannelMax

theorem length_keys (db : ChannelDb) : db.keys.length = db.channels.length :=
  List.length_map _

theorem keys_add_of_settled {db : ChannelDb} {ch : DvbChannel} (settled : db.Settled ch) :
    (db.add ch).keys = db.keys := by
  rw [keys, add]
  split
  · exact replace_keys ch db.channels
  · rename_i new
    have full := settled.resolve_left new
    rw [dif_neg (Nat.not_lt.mpr full.ge)]
    rfl

theorem keys_subset_add (db : ChannelDb) (ch : DvbChannel) : db.keys ⊆ (db.add ch).keys := by
  rw [keys, keys, add]
  split
  · rw [replace_keys]
    exact List.Subset.refl _
  · split
    · rw [List.map_append]
      exact List.subset_append_left _ _
    · exact List.Subset.refl _

theorem Settled.of_keys {db other : ChannelDb} (same : other.keys = db.keys) {ch : DvbChannel}
    (settled : db.Settled ch) : other.Settled ch := by
  have length := congrArg List.length same
  rw [length_keys, length_keys] at length
  rw [Settled, same, length]
  exact settled

/-- A channel that was added is settled. -/
theorem settled_add_self (db : ChannelDb) (ch : DvbChannel) : (db.add ch).Settled ch := by
  cases accepted : db.accepts ch with
  | false =>
      rw [add_of_refused accepted]
      exact Or.inr (refused_iff.mp accepted).2
  | true =>
      left
      have found : ((db.add ch).find? ch.key).isSome = true := by
        rw [find?_add accepted, if_pos rfl]
        rfl
      exact isSome_find?_iff.mp found

theorem Settled.add {db : ChannelDb} {ch : DvbChannel} (settled : db.Settled ch)
    (other : DvbChannel) : (db.add other).Settled ch := by
  rcases settled with found | full
  · exact Or.inl (db.keys_subset_add other found)
  · right
    have kept : (db.add other).keys = db.keys := keys_add_of_settled (Or.inr full)
    have length := congrArg List.length kept
    rw [length_keys, length_keys] at length
    exact length.trans full

theorem settled_addAll (db : ChannelDb) {channels : List DvbChannel} {ch : DvbChannel}
    (member : ch ∈ channels) : (db.addAll channels).Settled ch := by
  induction channels using List.reverseRecOn with
  | nil => cases member
  | append_singleton channels last ih =>
      rw [addAll_append]
      rcases List.mem_append.mp member with earlier | same
      · exact (ih earlier).add last
      · rw [List.mem_singleton.mp same]
        exact settled_add_self _ last

theorem keys_subset_addAll (db : ChannelDb) (channels : List DvbChannel) :
    db.keys ⊆ (db.addAll channels).keys := by
  induction channels using List.reverseRecOn with
  | nil => exact List.Subset.refl _
  | append_singleton channels last ih =>
      rw [addAll_append]
      exact List.Subset.trans ih (keys_subset_add _ last)

/-- Adding settled channels replaces some of them, and keeps the order. -/
theorem keys_addAll_of_settled {db : ChannelDb} {channels : List DvbChannel}
    (settled : ∀ ch ∈ channels, db.Settled ch) : (db.addAll channels).keys = db.keys := by
  induction channels using List.reverseRecOn with
  | nil => rfl
  | append_singleton channels last ih =>
      rw [List.forall_mem_append, List.forall_mem_singleton] at settled
      have kept := ih settled.1
      rw [addAll_append]
      exact (keys_add_of_settled (settled.2.of_keys kept)).trans kept

/-- What is found was added last with its key, or was there before. -/
theorem find?_addAll {db : ChannelDb} {channels : List DvbChannel} {key : ChannelKey}
    {ch : DvbChannel} (found : (db.addAll channels).find? key = some ch) :
    (lastWithKey channels key).or (db.find? key) = some ch := by
  induction channels using List.reverseRecOn with
  | nil => exact found
  | append_singleton channels last ih =>
      rw [addAll_append] at found
      have added : ((db.addAll channels).add last).find? key = some ch := found
      rw [lastWithKey_concat]
      cases accepted : (db.addAll channels).accepts last with
      | true =>
          rw [find?_add accepted] at added
          by_cases same : key = last.key
          · rw [if_pos same] at added ⊢
            exact added
          · rw [if_neg same] at added ⊢
            exact ih added
      | false =>
          rw [add_of_refused accepted] at added
          rw [if_neg, ih added]
          rintro rfl
          rw [(refused_iff.mp accepted).1] at added
          cases added

/-- A table is given by its keys in their order and by what is found under them. -/
theorem eq_of_keys {first second : ChannelDb} (keys : first.keys = second.keys)
    (same : ∀ key ∈ first.keys, first.find? key = second.find? key) : first = second := by
  have listed (db : ChannelDb) : db.channels.map some = db.keys.map db.find? := by
    rw [ChannelDb.keys, List.map_map, List.map_inj_left]
    intro ch member
    exact (find?_eq_some_iff.mpr ⟨member, rfl⟩).symm
  apply eq_of_channels
  apply List.map_injective_iff.mpr (Option.some_injective DvbChannel)
  rw [listed, listed, ← keys, List.map_inj_left]
  exact same

/-- Channels that are added again, to a table with the same keys that has the
other channels as they are, lead to the same table. -/
theorem addAll_again {base db : ChannelDb} {channels : List DvbChannel}
    (keys : db.keys = (base.addAll channels).keys)
    (others : ∀ ch ∈ (base.addAll channels).channels, lastWithKey channels ch.key = none →
      ch ∈ db.channels) :
    db.addAll channels = base.addAll channels := by
  have kept : (db.addAll channels).keys = db.keys :=
    keys_addAll_of_settled fun ch member => (base.settled_addAll member).of_keys keys
  apply eq_of_keys (kept.trans keys)
  intro key member
  have here : key ∈ (base.addAll channels).keys := keys ▸ kept ▸ member
  obtain ⟨again, foundAgain⟩ := Option.isSome_iff_exists.mp (isSome_find?_iff.mpr member)
  obtain ⟨ch, found⟩ := Option.isSome_iff_exists.mp (isSome_find?_iff.mpr here)
  have fromAgain := find?_addAll foundAgain
  have fromFirst := find?_addAll found
  rw [foundAgain, found]
  cases last : lastWithKey channels key with
  | some latest =>
      rw [last] at fromAgain fromFirst
      exact fromAgain.symm.trans fromFirst
  | none =>
      obtain ⟨inside, named⟩ := find?_eq_some_iff.mp found
      have old : ch ∈ db.channels := others ch inside (named.symm ▸ last)
      rw [last, find?_eq_some_iff.mpr ⟨old, named⟩] at fromAgain
      exact fromAgain.symm

end ChannelDb

/-- What a scan of the air finds fits the rows of the cache file. -/
theorem cacheChannel_scannedChannels {rfChannel : Int} {freqHz : UInt32} {reads : MuxReads}
    (range : -2 ^ 31 ≤ rfChannel ∧ rfChannel < 2 ^ 31) :
    ∀ ch ∈ scannedChannels ⟨rfChannel, freqHz, .atscVsb⟩ reads, CacheChannel ch := by
  intro ch member
  have storable : StorableChannel ch := storable_scannedChannels range ch member
  rw [scannedChannels_eq] at member
  split at member
  · exact absurd member List.not_mem_nil
  · obtain ⟨entry, shown, made⟩ := List.mem_filterMap.mp member
    obtain ⟨pmt, -, rfl⟩ := Option.map_eq_some_iff.mp made
    have table := @tableEntry_readVctLoop 8 reads.vcts [] []
      (fun _ member => absurd member List.not_mem_nil) entry (List.mem_filter.mp shown).1
    exact ⟨storable.major, storable.minor, range, storable.short,
      fun character inside => table.name.printable character (List.mem_of_mem_take inside)⟩

theorem atscFreqTable_range :
    ∀ entry ∈ atscFreqTable, -2 ^ 31 ≤ entry.1 ∧ entry.1 < 2 ^ 31 :=
  List.forall_iff_forall_mem.mp (by decide)

theorem cacheChannel_airChannels (air : Air) : ∀ ch ∈ airChannels air, CacheChannel ch := by
  intro ch member
  obtain ⟨entry, listed, given⟩ := List.mem_flatMap.mp member
  cases lock : air entry.2 with
  | none =>
      rw [lock] at given
      exact absurd given List.not_mem_nil
  | some reads =>
      rw [lock] at given
      exact cacheChannel_scannedChannels (atscFreqTable_range entry listed) ch given

/-- The table fits the rows of the cache file. -/
def ChannelDb.Cacheable (db : ChannelDb) : Prop :=
  ∀ ch ∈ db.channels, CacheChannel ch

/-- A file that a start can have left: none, or that of a table. -/
inductive Written : Option CStr → Prop
  | none : Written none
  | saved {db : ChannelDb} (fits : db.Cacheable) : Written (some (dvbChannelDbSave db))

/-- The table that a file is loaded as. -/
def loadedDb (file : Option CStr) : ChannelDb :=
  match file with
  | none => ChannelDb.empty
  | some text => (dvbChannelDbLoad text ChannelDb.empty).1

theorem CacheChannel.blanksDropped {ch : DvbChannel} (fits : CacheChannel ch) :
    CacheChannel ch.blanksDropped where
  major := fits.major
  minor := fits.minor
  rfChannel := fits.rfChannel
  short := (List.dropWhile_suffix _).length_le.trans fits.short
  printable character member :=
    fits.printable character ((List.dropWhile_suffix _).subset member)

theorem blanksDropped_blanksDropped (ch : DvbChannel) :
    ch.blanksDropped.blanksDropped = ch.blanksDropped := by
  have twice : (ch.shortName.dropWhile (· = ' ')).dropWhile (· = ' ') =
      ch.shortName.dropWhile (· = ' ') := List.dropWhile_idempotent _ _
  simp only [DvbChannel.blanksDropped, twice]

theorem channels_loadedDb_save {db : ChannelDb} (fits : db.Cacheable) :
    (loadedDb (some (dvbChannelDbSave db))).channels = db.channels.map DvbChannel.blanksDropped := by
  obtain ⟨loaded, result, run⟩ := load_save db fits
  rw [loadedDb, run]
  exact result

/-- What is loaded fits, and its names do not begin with blanks. -/
theorem Written.loaded {file : Option CStr} (written : Written file) :
    (loadedDb file).Cacheable ∧ ∀ ch ∈ (loadedDb file).channels, ch.blanksDropped = ch := by
  cases written with
  | none => exact ⟨fun _ member => absurd member List.not_mem_nil,
      fun _ member => absurd member List.not_mem_nil⟩
  | saved fits =>
      rw [ChannelDb.Cacheable, channels_loadedDb_save fits]
      simp only [List.forall_mem_map]
      exact ⟨fun ch member => (fits ch member).blanksDropped,
        fun ch _ => blanksDropped_blanksDropped ch⟩

/-- What a start adds to the loaded table. -/
def Boot.found (boot : Boot) : List DvbChannel :=
  if boot.scanOnStartup ∧ boot.claimed ∧ boot.opened then airChannels boot.air else []

/-- A start loads the file and adds what it finds; it writes the file if it
gets as far as scanning. -/
theorem startup_eq (boot : Boot) (file : Option CStr) :
    startup boot file = ((loadedDb file).addAll boot.found,
      if boot.scanOnStartup ∧ boot.claimed then
        some (dvbChannelDbSave ((loadedDb file).addAll boot.found))
      else file) := by
  obtain ⟨scanOnStartup, claimed, opened, air⟩ := boot
  change (if scanOnStartup = true then
    scanThreadMain ⟨scanOnStartup, claimed, opened, air⟩ (loadedDb file) file
      else (loadedDb file, file)) = _
  cases scanOnStartup with
  | false => rfl
  | true =>
      cases claimed with
      | false => rfl
      | true =>
          cases opened with
          | false => rfl
          | true =>
              simp only [if_true, scanThreadMain, scanFrequencies_fst, Boot.found, and_self,
                not_true_eq_false, if_false]

theorem cacheChannel_found (boot : Boot) : ∀ ch ∈ boot.found, CacheChannel ch := by
  rw [Boot.found]
  split
  · exact cacheChannel_airChannels boot.air
  · exact fun _ member => absurd member List.not_mem_nil

/-- A start leaves a table that fits the file, and a file like those it knows. -/
theorem Written.startup {file : Option CStr} (written : Written file) (boot : Boot) :
    (startup boot file).1.Cacheable ∧ Written (startup boot file).2 := by
  have cacheable : ((loadedDb file).addAll boot.found).Cacheable := by
    intro ch member
    rcases ChannelDb.mem_addAll member with old | new
    · exact written.loaded.1 ch old
    · exact cacheChannel_found boot ch (ChannelDb.taken_subset new)
  rw [startup_eq]
  refine ⟨cacheable, ?_⟩
  dsimp only
  split
  · exact Written.saved cacheable
  · exact written

theorem written_cacheAfter (boots : List Boot) : Written (cacheAfter boots) := by
  induction boots using List.reverseRecOn with
  | nil => exact Written.none
  | append_singleton boots boot ih =>
      rw [cacheAfter, List.foldl_concat]
      exact (ih.startup boot).2

theorem ChannelDb.mem_of_lastWithKey_eq_none {base : ChannelDb} {channels : List DvbChannel}
    {ch : DvbChannel} (member : ch ∈ (base.addAll channels).channels)
    (new : lastWithKey channels ch.key = none) : ch ∈ base.channels := by
  have found : (base.addAll channels).find? ch.key = some ch := find?_eq_some_iff.mpr ⟨member, rfl⟩
  have before := find?_addAll found
  rw [new, Option.none_or] at before
  exact (find?_eq_some_iff.mp before).1

/-- The file of a table leads back to it, if the same channels are added. -/
theorem Written.addAll_loaded {file : Option CStr} (written : Written file)
    {channels : List DvbChannel} (fits : ((loadedDb file).addAll channels).Cacheable) :
    (loadedDb (some (dvbChannelDbSave ((loadedDb file).addAll channels)))).addAll channels =
      (loadedDb file).addAll channels := by
  apply ChannelDb.addAll_again
  · rw [ChannelDb.keys, channels_loadedDb_save fits, List.map_map]
    rfl
  · intro ch member new
    have old := ChannelDb.mem_of_lastWithKey_eq_none member new
    rw [channels_loadedDb_save fits, ← written.loaded.2 ch old]
    exact List.mem_map_of_mem member

/-- After any number of starts on any air, starting twice is starting once: the
second start has the same table, in the same order, and leaves the same file.
What the last scan found is in the table as it was found last, unless there was
no room for it, and no channel of the file is lost. -/
theorem restart_stable (boots : List Boot) (boot : Boot) :
    startup boot (startup boot (cacheAfter boots)).2 = startup boot (cacheAfter boots) ∧
      (∀ ch ∈ boot.found,
        (startup boot (cacheAfter boots)).1.find? ch.key = lastWithKey boot.found ch.key ∨
          (startup boot (cacheAfter boots)).1.find? ch.key = none ∧
            (startup boot (cacheAfter boots)).1.channels.length = dvbChannelMax) ∧
      ∀ ch ∈ (loadedDb (cacheAfter boots)).channels,
        ∃ found, (startup boot (cacheAfter boots)).1.find? ch.key = some found := by
  have written := written_cacheAfter boots
  have fits := (written.startup boot).1
  have first := startup_eq boot (cacheAfter boots)
  rw [first] at fits ⊢
  dsimp only at fits ⊢
  refine ⟨?_, ?_, ?_⟩
  · split
    · rename_i scans
      rw [startup_eq, if_pos scans, written.addAll_loaded fits]
    · rename_i idle
      rw [startup_eq, if_neg idle]
  · intro ch member
    cases found : ((loadedDb (cacheAfter boots)).addAll boot.found).find? ch.key with
    | none =>
        right
        have missing : ch.key ∉ ((loadedDb (cacheAfter boots)).addAll boot.found).keys := by
          intro inside
          have some_ := ChannelDb.isSome_find?_iff.mpr inside
          rw [found] at some_
          cases some_
        exact ⟨rfl, (ChannelDb.settled_addAll _ member).resolve_left missing⟩
    | some latest =>
        left
        have from_ := ChannelDb.find?_addAll found
        obtain ⟨last, is⟩ := exists_lastWithKey member
        rw [is, Option.some_or] at from_
        rw [is, from_]
  · intro ch member
    have key : ch.key ∈ (loadedDb (cacheAfter boots)).keys := List.mem_map_of_mem member
    exact Option.isSome_iff_exists.mp
      (ChannelDb.isSome_find?_iff.mpr (ChannelDb.keys_subset_addAll _ _ key))

end HdhrEmu
