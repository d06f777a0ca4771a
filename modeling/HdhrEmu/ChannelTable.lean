import HdhrEmu.ChannelCache
import HdhrEmu.Lib.BoundedMap

/-!
# The channel database as a map

The table with updates in place and three scanning queries is, over any history
of clearing, adding and loading, a map from major and minor number to channels
with room for 256 of them.
-/

namespace HdhrEmu

open CString

/-- `cmp_major_minor`. -/
def cmpMajorMinor (x y : DvbChannel) : Int :=
  if x.major ≠ y.major then (if x.major < y.major then -1 else 1)
  else if x.minor ≠ y.minor then (if x.minor < y.minor then -1 else 1)
  else 0

/-- `qsort` with `cmp_major_minor`. -/
def qsortMajorMinor (channels : List DvbChannel) : List DvbChannel :=
  channels.mergeSort fun x y => cmpMajorMinor x y ≤ 0

/-- `dvb_channels_sorted`. -/
def dvbChannelsSorted (db : ChannelDb) (maxOut : Nat) : List DvbChannel :=
  qsortMajorMinor (db.channels.take maxOut)

/-- `dvb_channels_on_freq`, with room for `maxOut` channels. -/
def dvbChannelsOnFreq (db : ChannelDb) (frequencyHz : UInt32) (maxOut : Nat) : List DvbChannel :=
  (db.onFreq frequencyHz).take maxOut

/-- The order of major and then minor numbers. -/
def ChannelKey.Precedes (first second : ChannelKey) : Prop :=
  first.major < second.major ∨ first.major = second.major ∧ first.minor < second.minor

theorem cmpMajorMinor_le_iff (x y : DvbChannel) :
    cmpMajorMinor x y ≤ 0 ↔ x.key.Precedes y.key ∨ x.key = y.key := by
  simp only [cmpMajorMinor, ChannelKey.Precedes, DvbChannel.key, ChannelKey.mk.injEq]
  split <;> split <;> omega

theorem perm_qsortMajorMinor (channels : List DvbChannel) :
    (qsortMajorMinor channels).Perm channels :=
  List.mergeSort_perm _ _

/-- Channels with different keys come out in strictly ascending order. -/
theorem pairwise_qsortMajorMinor {channels : List DvbChannel}
    (nodup : (channels.map DvbChannel.key).Nodup) :
    ((qsortMajorMinor channels).map DvbChannel.key).Pairwise ChannelKey.Precedes := by
  have weak : (qsortMajorMinor channels).Pairwise fun x y =>
      decide (cmpMajorMinor x y ≤ 0) = true := by
    apply List.pairwise_mergeSort
    · intro x y z
      simp only [decide_eq_true_iff, cmpMajorMinor_le_iff, ChannelKey.Precedes, DvbChannel.key,
        ChannelKey.mk.injEq]
      omega
    · intro x y
      simp only [Bool.or_eq_true, decide_eq_true_iff, cmpMajorMinor_le_iff, ChannelKey.Precedes,
        DvbChannel.key, ChannelKey.mk.injEq]
      omega
  have distinct : ((qsortMajorMinor channels).map DvbChannel.key).Nodup :=
    ((perm_qsortMajorMinor channels).map DvbChannel.key).nodup_iff.mpr nodup
  rw [List.pairwise_map]
  apply weak.imp₂ _ (List.pairwise_map.mp distinct)
  intro x y le differ
  exact ((cmpMajorMinor_le_iff x y).mp (decide_eq_true_iff.mp le)).resolve_right differ

abbrev ChannelRegistry := BoundedMap ChannelKey DvbChannel dvbChannelMax

theorem nodupKeys_channels (db : ChannelDb) :
    (db.channels.map fun ch => (⟨ch.key, ch⟩ : Sigma fun _ : ChannelKey => DvbChannel)).NodupKeys := by
  rw [List.NodupKeys, List.keys, List.map_map]
  exact db.keys_nodup

/-- The map that a table stands for. -/
def ChannelDb.toMap (db : ChannelDb) : ChannelRegistry where
  entries := AList.toFinmap ⟨_, nodupKeys_channels db⟩
  bounded := by
    rw [← Finset.card_val, Finmap.keys_val, Multiset.coe_card, AList.keys, List.keys,
      List.length_map, List.length_map]
    exact db.bounded

namespace ChannelDb

@[simp]
theorem lookup_toMap (db : ChannelDb) (key : ChannelKey) : db.toMap.lookup key = db.find? key := by
  have found : ∀ channels : List DvbChannel,
      (channels.map fun ch => (⟨ch.key, ch⟩ : Sigma fun _ : ChannelKey => DvbChannel)).dlookup key =
        channels.find? fun ch => ch.key == key := by
    intro channels
    induction channels with
    | nil => rfl
    | cons ch channels ih =>
        rw [List.map_cons, List.find?_cons]
        by_cases same : ch.key = key
        · subst same
          rw [List.dlookup_cons_eq, beq_self_eq_true]
        · rw [List.dlookup_cons_ne _ _ (Ne.symm same), ih, beq_false_of_ne same]
  rw [BoundedMap.lookup, toMap, Finmap.lookup_toFinmap]
  exact found db.channels

@[simp]
theorem size_toMap (db : ChannelDb) : db.toMap.size = db.channels.length := by
  rw [BoundedMap.size, toMap, ← Finset.card_val, Finmap.keys_val, Multiset.coe_card, AList.keys,
    List.keys, List.length_map, List.length_map]

theorem isSome_find?_iff {db : ChannelDb} {key : ChannelKey} :
    (db.find? key).isSome = true ↔ key ∈ db.channels.map DvbChannel.key := by
  rw [find?, List.find?_isSome, List.mem_map]
  simp only [beq_iff_eq]

@[simp]
theorem accepts_toMap (db : ChannelDb) (ch : DvbChannel) :
    db.toMap.accepts ch.key = db.accepts ch := by
  rw [BoundedMap.accepts, accepts, lookup_toMap, size_toMap]
  simp only [isSome_find?_iff]

theorem find?_replace (ch : DvbChannel) {channels : List DvbChannel} (key : ChannelKey)
    (found : ch.key ∈ channels.map DvbChannel.key) :
    ((replace ch channels).find? fun other => other.key == key) =
      if key = ch.key then some ch else channels.find? fun other => other.key == key := by
  induction channels with
  | nil => cases found
  | cons old rest ih =>
      rw [replace]
      by_cases here : old.key = ch.key
      · rw [if_pos here, List.find?_cons, List.find?_cons, here]
        by_cases same : ch.key = key
        · simp [same]
        · rw [beq_false_of_ne same, if_neg (Ne.symm same)]
      · have later : ch.key ∈ rest.map DvbChannel.key :=
          (List.mem_cons.mp found).resolve_left (Ne.symm here)
        rw [if_neg here, List.find?_cons, List.find?_cons, ih later]
        by_cases same : old.key = key
        · have differs : key ≠ ch.key := same ▸ here
          simp [same, differs]
        · rw [beq_false_of_ne same]

/-- What is found after an addition that succeeded. -/
theorem find?_add {db : ChannelDb} {ch : DvbChannel} (accepted : db.accepts ch = true)
    (key : ChannelKey) :
    (db.add ch).find? key = if key = ch.key then some ch else db.find? key := by
  rw [accepts, decide_eq_true_iff] at accepted
  rw [find?, find?, add]
  by_cases found : ch.key ∈ db.channels.map DvbChannel.key
  · rw [dif_pos found]
    exact find?_replace ch key found
  · rw [dif_neg found, dif_pos (accepted.resolve_left found), List.find?_append]
    by_cases same : key = ch.key
    · subst same
      have missing : (db.channels.find? fun other => other.key == ch.key) = none := by
        rw [List.find?_eq_none]
        intro other member same
        exact found (List.mem_map.mpr ⟨other, member, beq_iff_eq.mp same⟩)
      simp [missing]
    · have differs : (ch.key == key) = false := beq_false_of_ne (Ne.symm same)
      simp [same, differs]

/-- An addition that fails changes nothing. -/
theorem add_of_refused {db : ChannelDb} {ch : DvbChannel} (refused : db.accepts ch = false) :
    db.add ch = db := by
  rw [accepts, decide_eq_false_iff_not, not_or] at refused
  rw [add, dif_neg refused.1, dif_neg refused.2]

theorem toMap_empty : empty.toMap = BoundedMap.empty := by
  ext key
  rw [lookup_toMap, BoundedMap.lookup_empty]
  rfl

/-- Adding to the table is inserting into the map. -/
theorem toMap_add (db : ChannelDb) (ch : DvbChannel) :
    (db.add ch).toMap = db.toMap.insert ch.key ch := by
  cases accepted : db.accepts ch with
  | false =>
      rw [add_of_refused accepted, BoundedMap.insert_of_refused]
      rw [accepts_toMap, accepted]
  | true =>
      ext key
      rw [BoundedMap.lookup_insert ((accepts_toMap db ch).trans accepted), lookup_toMap,
        lookup_toMap, find?_add accepted]

end ChannelDb

/-- What is done to the table; a file that cannot be opened is not there. -/
inductive DbOp
  | clear
  | add (ch : DvbChannel)
  | load (file : Option CStr)

/-- What an operation returns. -/
inductive DbResult
  | cleared
  | added (ok : Bool)
  | loaded (count : Int)
  deriving DecidableEq

/-- A line that `dvb_channel_db_load` skips. -/
def skippedLine (line : CStr) : Bool :=
  line.head?.all fun character => character = '#' || character = '\n'

/-- The rows of a cache file in their order; a malformed one is `none`. -/
def cacheRows (file : CStr) : List (Option DvbChannel) :=
  ((cacheLines file).filter fun line => !skippedLine line).map scanCacheRow

/-- The rows before the first malformed one. -/
def goodRows : List (Option DvbChannel) → List DvbChannel
  | some ch :: rows => ch :: goodRows rows
  | _ => []

def dbStep (db : ChannelDb) : DbOp → ChannelDb × DbResult
  | .clear => (.empty, .cleared)
  | .add ch => (db.add ch, .added (db.accepts ch))
  | .load none => (db, .loaded 0)
  | .load (some file) => ((dvbChannelDbLoad file db).1, .loaded (dvbChannelDbLoad file db).2)

/-- Inserting the rows of a file, up to the first malformed one. -/
def loadRows (map : ChannelRegistry) (n : Nat) : List (Option DvbChannel) → ChannelRegistry × Int
  | [] => (map, n)
  | none :: _ => (map, -1)
  | some ch :: rows =>
      loadRows (map.insert ch.key ch) (if map.accepts ch.key then n + 1 else n) rows

/-- The same operations on a map. -/
def mapStep (map : ChannelRegistry) : DbOp → ChannelRegistry × DbResult
  | .clear => (.empty, .cleared)
  | .add ch => (map.insert ch.key ch, .added (map.accepts ch.key))
  | .load none => (map, .loaded 0)
  | .load (some file) =>
      ((loadRows map 0 (cacheRows file)).1, .loaded (loadRows map 0 (cacheRows file)).2)

/-- The channels that an operation adds successfully, in their order. -/
def DbOp.adds (db : ChannelDb) : DbOp → List DvbChannel
  | .clear | .load none => []
  | .add ch => if db.accepts ch then [ch] else []
  | .load (some file) => db.taken (goodRows (cacheRows file))

/-- The state behind a history, the results, and all that was added since the
table was cleared last. -/
structure DbHistory where
  db : ChannelDb
  map : ChannelRegistry
  dbResults : List DbResult
  mapResults : List DbResult
  added : List DvbChannel

def DbHistory.start : DbHistory :=
  ⟨.empty, .empty, [], [], []⟩

def DbHistory.step (history : DbHistory) (op : DbOp) : DbHistory where
  db := (dbStep history.db op).1
  map := (mapStep history.map op).1
  dbResults := history.dbResults ++ [(dbStep history.db op).2]
  mapResults := history.mapResults ++ [(mapStep history.map op).2]
  added :=
    match op with
    | .clear => []
    | _ => history.added ++ op.adds history.db

def dbHistory (ops : List DbOp) : DbHistory :=
  ops.foldl DbHistory.step .start

theorem loadCacheLines_eq (db : ChannelDb) (n : Nat) (lines : List CStr) :
    (loadCacheLines db n lines).1 =
        db.addAll (goodRows ((lines.filter fun line => !skippedLine line).map scanCacheRow)) ∧
      ((loadCacheLines db n lines).1.toMap, (loadCacheLines db n lines).2) =
        loadRows db.toMap n ((lines.filter fun line => !skippedLine line).map scanCacheRow) := by
  induction lines generalizing db n with
  | nil => exact ⟨rfl, rfl⟩
  | cons line lines ih =>
      cases skipped : skippedLine line with
      | true =>
          have next : loadCacheLines db n (line :: lines) = loadCacheLines db n lines :=
            if_pos skipped
          rw [next, List.filter_cons, skipped]
          exact ih db n
      | false =>
          have kept : ¬ (line.head?.all fun character => character = '#' || character = '\n') = true := by
            rw [← skippedLine, skipped]
            exact Bool.false_ne_true
          rw [List.filter_cons, skipped, Bool.not_false, if_pos rfl, List.map_cons]
          cases row : scanCacheRow line with
          | none =>
              have next : loadCacheLines db n (line :: lines) = (db, -1) := by
                rw [loadCacheLines, if_neg kept, row]
              rw [next]
              exact ⟨rfl, rfl⟩
          | some ch =>
              have next : loadCacheLines db n (line :: lines) =
                  loadCacheLines (db.add ch) (if db.accepts ch then n + 1 else n) lines := by
                rw [loadCacheLines, if_neg kept, row]
              obtain ⟨state, both⟩ := ih (db.add ch) (if db.accepts ch then n + 1 else n)
              rw [next]
              refine ⟨state, both.trans ?_⟩
              rw [loadRows, ChannelDb.toMap_add, ChannelDb.accepts_toMap]

/-- Every step of the table is the step of the map it stands for. -/
theorem dbStep_toMap (db : ChannelDb) (op : DbOp) :
    (dbStep db op).1.toMap = (mapStep db.toMap op).1 ∧
      (dbStep db op).2 = (mapStep db.toMap op).2 := by
  cases op with
  | clear => exact ⟨ChannelDb.toMap_empty, rfl⟩
  | add ch =>
      refine ⟨db.toMap_add ch, ?_⟩
      rw [dbStep, mapStep, db.accepts_toMap]
  | load file =>
      cases file with
      | none => exact ⟨rfl, rfl⟩
      | some file =>
          obtain ⟨-, both⟩ := loadCacheLines_eq db 0 (cacheLines file)
          exact ⟨congrArg Prod.fst both, congrArg DbResult.loaded (congrArg Prod.snd both)⟩

/-- The last channel of a list with a key. -/
def lastWithKey (channels : List DvbChannel) (key : ChannelKey) : Option DvbChannel :=
  channels.reverse.find? fun ch => ch.key == key

theorem lastWithKey_concat (channels : List DvbChannel) (ch : DvbChannel) (key : ChannelKey) :
    lastWithKey (channels ++ [ch]) key =
      if key = ch.key then some ch else lastWithKey channels key := by
  rw [lastWithKey, List.reverse_concat, List.find?_cons]
  by_cases same : key = ch.key
  · simp [same]
  · have differs : (ch.key == key) = false := beq_false_of_ne (Ne.symm same)
    rw [differs, if_neg same, lastWithKey]

/-- Everything that is found was added last with its key. -/
def LastFound (db : ChannelDb) (added : List DvbChannel) : Prop :=
  ∀ key, db.find? key = lastWithKey added key

theorem LastFound.add {db : ChannelDb} {added : List DvbChannel} (found : LastFound db added)
    (ch : DvbChannel) :
    LastFound (db.add ch) (added ++ if db.accepts ch then [ch] else []) := by
  intro key
  cases accepted : db.accepts ch with
  | false =>
      rw [ChannelDb.add_of_refused accepted, if_neg Bool.false_ne_true, List.append_nil]
      exact found key
  | true => rw [if_pos rfl, lastWithKey_concat, ChannelDb.find?_add accepted, found key]

theorem LastFound.addAll {db : ChannelDb} {added : List DvbChannel} (found : LastFound db added)
    (channels : List DvbChannel) : LastFound (db.addAll channels) (added ++ db.taken channels) := by
  induction channels generalizing db added with
  | nil => simpa [ChannelDb.addAll, ChannelDb.taken] using found
  | cons ch channels ih =>
      have rest := ih (found.add ch)
      have parts : db.taken (ch :: channels) =
          (if db.accepts ch then [ch] else []) ++ (db.add ch).taken channels := by
        rw [ChannelDb.taken]
        split <;> rfl
      rw [parts, ← List.append_assoc]
      exact rest

/-- The table, the map and the additions tell the same story. -/
structure DbHistory.Agrees (history : DbHistory) : Prop where
  map : history.db.toMap = history.map
  results : history.dbResults = history.mapResults
  found : LastFound history.db history.added

theorem DbHistory.Agrees.step {history : DbHistory} (agrees : history.Agrees) (op : DbOp) :
    (history.step op).Agrees := by
  obtain ⟨state, result⟩ := dbStep_toMap history.db op
  rw [agrees.map] at state result
  constructor
  · exact state
  · change history.dbResults ++ [(dbStep history.db op).2] = history.mapResults ++ _
    rw [agrees.results, result]
  · cases op with
    | clear => exact fun _ => rfl
    | add ch => exact agrees.found.add ch
    | load file =>
        cases file with
        | none =>
            have same : (history.step (.load none)).added = history.added := List.append_nil _
            rw [LastFound, same]
            exact agrees.found
        | some file =>
            have loaded : (history.step (.load (some file))).db =
                history.db.addAll (goodRows (cacheRows file)) :=
              (loadCacheLines_eq history.db 0 (cacheLines file)).1
            rw [LastFound, loaded]
            exact agrees.found.addAll _

theorem agrees_dbHistory (ops : List DbOp) : (dbHistory ops).Agrees := by
  induction ops using List.reverseRecOn with
  | nil => exact ⟨ChannelDb.toMap_empty, rfl, fun _ => rfl⟩
  | append_singleton ops op ih =>
      rw [dbHistory, List.foldl_concat]
      exact ih.step op

/-- What a table of channels does when it is a map with a capacity. -/
structure BehavesAsMap (db : ChannelDb) (map : ChannelRegistry) (added : List DvbChannel) :
    Prop where
  unique : (db.channels.map DvbChannel.key).Nodup
  bounded : db.channels.length ≤ dvbChannelMax
  lookup : ∀ key, db.find? key = map.lookup key
  last : ∀ key, db.find? key = lastWithKey added key
  replaces : ∀ ch, (db.find? ch.key).isSome = true → db.accepts ch = true
  accepted : ∀ ch, db.accepts ch = true →
    ∀ key, (db.add ch).find? key = if key = ch.key then some ch else db.find? key
  refused : ∀ ch, db.accepts ch = false ↔
    db.find? ch.key = none ∧ db.channels.length = dvbChannelMax
  unchanged : ∀ ch, db.accepts ch = false → db.add ch = db
  onFreq : ∀ freq maxOut, (db.onFreq freq).length ≤ maxOut →
    (dvbChannelsOnFreq db freq maxOut).Nodup ∧
      ∀ ch, ch ∈ dvbChannelsOnFreq db freq maxOut ↔
        map.lookup ch.key = some ch ∧ ch.frequencyHz = freq
  sorted : ∀ maxOut, db.channels.length ≤ maxOut →
    ((dvbChannelsSorted db maxOut).map DvbChannel.key).Pairwise ChannelKey.Precedes ∧
      (dvbChannelsSorted db maxOut).Perm db.channels ∧
      ∀ ch, ch ∈ dvbChannelsSorted db maxOut ↔ map.lookup ch.key = some ch

theorem ChannelDb.mem_channels_iff {db : ChannelDb} {ch : DvbChannel} :
    ch ∈ db.channels ↔ db.toMap.lookup ch.key = some ch := by
  rw [lookup_toMap, find?_eq_some_iff]
  exact (and_iff_left rfl).symm

theorem ChannelDb.refused_iff {db : ChannelDb} {ch : DvbChannel} :
    db.accepts ch = false ↔ db.find? ch.key = none ∧ db.channels.length = dvbChannelMax := by
  rw [← accepts_toMap, BoundedMap.refused_iff, lookup_toMap, size_toMap]

theorem ChannelDb.accepts_of_found {db : ChannelDb} {ch : DvbChannel}
    (found : (db.find? ch.key).isSome = true) : db.accepts ch = true := by
  rw [accepts, decide_eq_true_iff]
  exact .inl (isSome_find?_iff.mp found)

theorem dvbChannelsOnFreq_exact {db : ChannelDb} {freq : UInt32} {maxOut : Nat}
    (room : (db.onFreq freq).length ≤ maxOut) :
    (dvbChannelsOnFreq db freq maxOut).Nodup ∧
      ∀ ch, ch ∈ dvbChannelsOnFreq db freq maxOut ↔
        db.toMap.lookup ch.key = some ch ∧ ch.frequencyHz = freq := by
  rw [dvbChannelsOnFreq, List.take_of_length_le room, ChannelDb.onFreq]
  refine ⟨(db.keys_nodup.of_map _).filter _, fun ch => ?_⟩
  rw [List.mem_filter, ChannelDb.mem_channels_iff, beq_iff_eq]

theorem dvbChannelsSorted_exact {db : ChannelDb} {maxOut : Nat}
    (room : db.channels.length ≤ maxOut) :
    ((dvbChannelsSorted db maxOut).map DvbChannel.key).Pairwise ChannelKey.Precedes ∧
      (dvbChannelsSorted db maxOut).Perm db.channels ∧
      ∀ ch, ch ∈ dvbChannelsSorted db maxOut ↔ db.toMap.lookup ch.key = some ch := by
  rw [dvbChannelsSorted, List.take_of_length_le room]
  refine ⟨pairwise_qsortMajorMinor db.keys_nodup, perm_qsortMajorMinor _, fun ch => ?_⟩
  rw [(perm_qsortMajorMinor _).mem_iff, ChannelDb.mem_channels_iff]

/-- After any history the table behaves as a map with room for 256 channels,
and every operation has returned what it returns on the map. -/
theorem channel_db_behaves_as_map (ops : List DbOp) :
    BehavesAsMap (dbHistory ops).db (dbHistory ops).map (dbHistory ops).added ∧
      (dbHistory ops).dbResults = (dbHistory ops).mapResults := by
  have agrees := agrees_dbHistory ops
  refine ⟨?_, agrees.results⟩
  rw [← agrees.map]
  constructor
  · exact (dbHistory ops).db.keys_nodup
  · exact (dbHistory ops).db.bounded
  · exact fun key => ((dbHistory ops).db.lookup_toMap key).symm
  · exact agrees.found
  · exact fun _ => ChannelDb.accepts_of_found
  · exact fun _ => ChannelDb.find?_add
  · exact fun _ => ChannelDb.refused_iff
  · exact fun _ => ChannelDb.add_of_refused
  · exact fun _ _ => dvbChannelsOnFreq_exact
  · exact fun _ => dvbChannelsSorted_exact

end HdhrEmu
