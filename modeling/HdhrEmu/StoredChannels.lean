import HdhrEmu.ChannelCache
import HdhrEmu.ScanPsip

/-!
# The channels that are stored

Channels come into the database from the tables of a mux or from the cache
file.  Either way their numbers are C integers, and their names fit the array
for them and have no line end in them.
-/

namespace HdhrEmu

open CString

/-- A channel as a scan or the cache leaves it in the table. -/
structure StorableChannel (ch : DvbChannel) : Prop where
  major : -2 ^ 31 ≤ ch.major ∧ ch.major < 2 ^ 31
  minor : -2 ^ 31 ≤ ch.minor ∧ ch.minor < 2 ^ 31
  short : ch.shortName.length ≤ 15
  oneLine : '\n' ∉ ch.shortName
  unterminated : Char.ofNat 0 ∉ ch.shortName

/-- What a virtual channel table gives a channel. -/
structure TableEntry (entry : TvctEntry) : Prop where
  major : entry.majorChannelNumber < 2 ^ 10
  minor : entry.minorChannelNumber < 2 ^ 10
  name : TableName entry.shortName

theorem tableEntry_tvctEntries (sec : List UInt8) (last room off : Nat) :
    ∀ entry ∈ tvctEntries sec last room off, TableEntry entry := by
  induction room generalizing off with
  | zero => exact fun _ member => absurd member List.not_mem_nil
  | succ room ih =>
      have names := tableName_tvctEntries sec last (room + 1) off
      rw [tvctEntries] at names ⊢
      split at names
      · rename_i inside
        rw [List.forall_mem_cons] at names
        rw [if_pos inside, List.forall_mem_cons]
        exact ⟨⟨Nat.and_lt_two_pow _ (by decide), Nat.and_lt_two_pow _ (by decide), names.1⟩, ih _⟩
      · rename_i outside
        rw [if_neg outside]
        exact fun _ member => absurd member List.not_mem_nil

theorem tableEntry_readVctLoop {attempts : Nat} {reads : List (Option (List UInt8))}
    {seen : List UInt8} {out : List TvctEntry} (fine : ∀ entry ∈ out, TableEntry entry) :
    ∀ entry ∈ readVctLoop attempts reads seen out, TableEntry entry := by
  have appended : ∀ {sec : List UInt8} {room : Nat} {out entries : List TvctEntry}
      {number last : UInt8}, (∀ entry ∈ out, TableEntry entry) →
      psipParseTvct sec room = some (entries, number, last) →
      ∀ entry ∈ out ++ entries, TableEntry entry := by
    intro sec room out entries number last fine parsed
    obtain ⟨total, -, same⟩ := Option.map_eq_some_iff.mp parsed
    cases same
    rw [List.forall_mem_append]
    exact ⟨fine, tableEntry_tvctEntries _ _ _ _⟩
  fun_induction readVctLoop attempts reads seen out with
  | case1 | case2 | case3 | case4 | case5 => exact fine
  | case6 _ _ _ _ _ _ _ _ ih => exact ih fine
  | case7 _ _ _ _ _ _ _ _ _ _ _ _ ih => exact ih fine
  | case8 _ _ _ _ _ _ _ _ _ _ parsed => exact appended fine parsed
  | case9 _ _ _ _ _ _ _ _ _ _ parsed _ _ ih => exact ih (appended fine parsed)

theorem storable_scannedChannels {scan : ScanTarget} {reads : MuxReads}
    (range : -2 ^ 31 ≤ scan.rfChannel ∧ scan.rfChannel < 2 ^ 31) :
    ∀ ch ∈ scannedChannels scan reads, StorableChannel ch := by
  intro ch member
  rw [scannedChannels_eq] at member
  split at member
  · split at member
    · obtain ⟨entry, -, rfl⟩ := List.mem_map.mp member
      have program := entry.programNumber.toNat_lt
      have minor : -2 ^ 31 ≤ (entry.programNumber.toNat : Int) ∧
          (entry.programNumber.toNat : Int) < 2 ^ 31 := by omega
      have clean {character : Char} (notDigit : character.isDigit = false) (notDash : character ≠ '-') :
          character ∉ (channelWithoutVct scan (patOf reads) entry).shortName := by
        intro member
        have whole := List.mem_of_mem_take member
        rw [List.mem_append, List.mem_cons] at whole
        rcases whole with digit | dash | digit
        · exact absurd (isDigit_decimal digit) (by rw [notDigit]; decide)
        · exact notDash dash
        · exact absurd (isDigit_decimal digit) (by rw [notDigit]; decide)
      exact ⟨range, minor, List.length_take_le _ _, clean (by decide) (by decide),
        clean (by decide) (by decide)⟩
    · exact absurd member List.not_mem_nil
  · obtain ⟨entry, shown, made⟩ := List.mem_filterMap.mp member
    obtain ⟨pmt, -, rfl⟩ := Option.map_eq_some_iff.mp made
    have table := @tableEntry_readVctLoop 8 reads.vcts [] [] (fun _ member => absurd member List.not_mem_nil) entry
      (List.mem_filter.mp shown).1
    have major := table.major
    have minor := table.minor
    have printable : ∀ character ∈ entry.shortName.take 15, ' ' ≤ character ∧ character ≤ '~' :=
      fun character member => table.name.printable character (List.mem_of_mem_take member)
    constructor
    · change _ ≤ (entry.majorChannelNumber : Int) ∧ (entry.majorChannelNumber : Int) < _
      omega
    · change _ ≤ (entry.minorChannelNumber : Int) ∧ (entry.minorChannelNumber : Int) < _
      omega
    · exact List.length_take_le _ _
    · exact not_mem_of_printable printable (by decide)
    · exact not_mem_of_printable printable (by decide)

theorem subset_cacheName (rest : CStr) : cacheName rest ⊆ rest := by
  intro character member
  have inside := (List.dropWhile_suffix _).subset (List.mem_reverse.mp (List.mem_of_mem_take member))
  exact (List.dropWhile_suffix _).subset ((List.dropWhile_suffix _).subset (List.mem_reverse.mp inside))

/-- A line end is at the end of the line only, where it is cut off. -/
theorem newline_not_mem_cacheName {rest : CStr} (clean : '\n' ∉ rest.dropLast) :
    '\n' ∉ cacheName rest := by
  intro member
  have name : (scanBlank rest).dropWhile (· = ' ') <:+ rest :=
    (List.dropWhile_suffix _).trans (List.dropWhile_suffix _)
  have kept := List.mem_reverse.mp (List.mem_of_mem_take member)
  obtain ⟨skipped, whole⟩ := name
  rcases List.eq_nil_or_concat ((scanBlank rest).dropWhile (· = ' ')) with none | ⟨front, last, split⟩
  · rw [none] at kept
    exact absurd kept List.not_mem_nil
  · rw [split] at kept whole
    rw [List.concat_eq_append] at kept whole
    rw [← whole, ← List.append_assoc, List.dropLast_concat, List.mem_append, not_or] at clean
    rw [List.reverse_append, List.reverse_singleton, List.singleton_append] at kept
    by_cases ends : last = '\n'
    · subst ends
      rw [List.dropWhile_cons_of_pos (by decide)] at kept
      exact clean.2 (List.mem_reverse.mp ((List.dropWhile_suffix _).subset kept))
    · rcases List.mem_cons.mp ((List.dropWhile_suffix _).subset kept) with same | inside
      · exact ends same.symm
      · exact clean.2 (List.mem_reverse.mp inside)

theorem storable_scanCacheRow {line : CStr} {ch : DvbChannel} (oneLine : '\n' ∉ line.dropLast)
    (unterminated : Char.ofNat 0 ∉ line) (read : scanCacheRow line = some ch) :
    StorableChannel ch := by
  unfold scanCacheRow at read
  obtain ⟨⟨_, _⟩, first, read⟩ := Option.bind_eq_some_iff.mp read
  obtain ⟨⟨_, _⟩, second, read⟩ := Option.bind_eq_some_iff.mp read
  obtain ⟨⟨_, _⟩, third, read⟩ := Option.bind_eq_some_iff.mp read
  obtain ⟨⟨_, _⟩, fourth, read⟩ := Option.bind_eq_some_iff.mp read
  obtain ⟨⟨_, _⟩, fifth, read⟩ := Option.bind_eq_some_iff.mp read
  obtain ⟨⟨_, _⟩, sixth, read⟩ := Option.bind_eq_some_iff.mp read
  obtain ⟨⟨_, _⟩, seventh, read⟩ := Option.bind_eq_some_iff.mp read
  obtain ⟨⟨_, _⟩, eighth, read⟩ := Option.bind_eq_some_iff.mp read
  obtain ⟨⟨_, _⟩, ninth, read⟩ := Option.bind_eq_some_iff.mp read
  obtain ⟨⟨_, _⟩, tenth, read⟩ := Option.bind_eq_some_iff.mp read
  obtain ⟨⟨_, _⟩, eleventh, read⟩ := Option.bind_eq_some_iff.mp read
  obtain ⟨⟨_, _⟩, twelfth, read⟩ := Option.bind_eq_some_iff.mp read
  obtain ⟨⟨_, rest⟩, last, read⟩ := Option.bind_eq_some_iff.mp read
  cases read
  have behind : rest <:+ line :=
    (suffix_of_scanUnsigned last).trans <| (suffix_of_scanUnsigned twelfth).trans <|
    (suffix_of_scanUnsigned eleventh).trans <| (suffix_of_scanUnsigned tenth).trans <|
    (suffix_of_scanUnsigned ninth).trans <| (suffix_of_scanUnsigned eighth).trans <|
    (suffix_of_scanUnsigned seventh).trans <| (suffix_of_scanUnsigned sixth).trans <|
    (suffix_of_scanUnsigned fifth).trans <| (of_scanInt fourth).1.trans <|
    (of_scanInt third).1.trans <| (of_scanInt second).1.trans (of_scanInt first).1
  have clean : '\n' ∉ rest.dropLast := by
    obtain ⟨numbers, rfl⟩ := behind
    intro member
    apply oneLine
    rw [List.dropLast_append_of_ne_nil (by rintro rfl; cases member)]
    exact List.mem_append_right _ member
  exact ⟨(of_scanInt first).2, (of_scanInt second).2, List.length_take_le _ _,
    newline_not_mem_cacheName clean,
    fun member => unterminated (behind.subset (subset_cacheName rest member))⟩

/-- A database that scans and loads have filled. -/
inductive StoredDb : ChannelDb → Prop
  | empty : StoredDb .empty
  | scan {db : ChannelDb} {scan : ScanTarget} {reads : MuxReads} : StoredDb db →
      -2 ^ 31 ≤ scan.rfChannel ∧ scan.rfChannel < 2 ^ 31 →
      StoredDb (dvbScanReadPsip scan reads db).1
  | load {db : ChannelDb} {file : CStr} : StoredDb db → StoredDb (dvbChannelDbLoad file db).1

theorem storable_add {db : ChannelDb} {channel : DvbChannel}
    (storable : ∀ ch ∈ db.channels, StorableChannel ch) (new : StorableChannel channel) :
    ∀ ch ∈ (db.add channel).channels, StorableChannel ch := by
  intro ch member
  rcases ChannelDb.mem_add member with old | ⟨rfl, -⟩
  · exact storable ch old
  · exact new

theorem storable_loadCacheLines {lines : List CStr} {db : ChannelDb} {n : Nat}
    (fine : ∀ line ∈ lines, '\n' ∉ line.dropLast ∧ Char.ofNat 0 ∉ line)
    (storable : ∀ ch ∈ db.channels, StorableChannel ch) :
    ∀ ch ∈ (loadCacheLines db n lines).1.channels, StorableChannel ch := by
  fun_induction loadCacheLines db n lines with
  | case1 => exact storable
  | case2 _ _ _ _ _ ih => exact ih (List.forall_mem_cons.mp fine).2 storable
  | case3 => exact storable
  | case4 _ _ _ _ _ _ read ih =>
      obtain ⟨first, others⟩ := List.forall_mem_cons.mp fine
      exact ih others (storable_add storable (storable_scanCacheRow first.1 first.2 read))

/-- What is stored is a channel that can be stored. -/
theorem StoredDb.storable {db : ChannelDb} (stored : StoredDb db) :
    ∀ ch ∈ db.channels, StorableChannel ch := by
  induction stored with
  | empty => exact fun _ member => absurd member List.not_mem_nil
  | @scan db scan reads _ range ih =>
      intro ch member
      rw [dvbScanReadPsip_eq] at member
      rcases ChannelDb.mem_addAll member with old | new
      · exact ih ch old
      · exact storable_scannedChannels range ch (ChannelDb.taken_subset new)
  | @load db file _ ih =>
      apply storable_loadCacheLines _ ih
      intro line member
      exact of_mem_cacheLines member

end HdhrEmu
