import HdhrEmu.Lib.FirstByKey
import HdhrEmu.ScanPsip

/-!
# Reading a virtual channel table

The sections of a table are sent over and over, in any order, and some arrive
damaged.  Each section that is read is parsed into the array of the caller
before it is known whether it came before; only then the number of entries is
moved on.
-/

namespace HdhrEmu

/-- The variables of `read_vct`, with the array of the caller. -/
structure VctReading (maxOut : Nat) where
  out : List TvctEntry
  seen : List UInt8
  lastSection : Option UInt8
  total : Nat
  attempts : Nat
  out_length : out.length = maxOut
  total_le : total ≤ maxOut

namespace VctReading

variable {maxOut : Nat}

def start (out : { out : List TvctEntry // out.length = maxOut }) : VctReading maxOut :=
  ⟨out.val, [], none, 0, 0, out.property, Nat.zero_le _⟩

/-- The entries of a section are written behind those that count. -/
def store (reading : VctReading maxOut) (entries : List TvctEntry)
    (fits : reading.total + entries.length ≤ maxOut) : VctReading maxOut :=
  { reading with
    out := reading.out.take reading.total ++ entries ++
      reading.out.drop (reading.total + entries.length)
    out_length := by
      have := reading.out_length
      rw [List.length_append, List.length_append, List.length_take, List.length_drop]
      omega }

/-- The entries of a section that counts. -/
def count (reading : VctReading maxOut) (entries : List TvctEntry) (number last : UInt8)
    (fits : reading.total + entries.length ≤ maxOut) : VctReading maxOut :=
  { reading.store entries fits with
    seen := number :: reading.seen
    lastSection := some last
    total := reading.total + entries.length
    total_le := fits }

/-- All sections up to the last one were seen. -/
def complete (reading : VctReading maxOut) : Bool :=
  match reading.lastSection with
  | none => false
  | some last => (List.range (last.toNat + 1)).all fun s => UInt8.ofNat s ∈ reading.seen

theorem fits_of_parsed (reading : VctReading maxOut) {sec : List UInt8}
    {parsed : List TvctEntry × UInt8 × UInt8}
    (read : psipParseTvct sec (maxOut - reading.total) = some parsed) :
    reading.total + parsed.1.length ≤ maxOut := by
  have few := length_psipParseTvct read
  have := reading.total_le
  omega

/-- What an attempt does with what was parsed, and whether the loop goes on. -/
def accept (reading : VctReading maxOut) (entries : List TvctEntry) (number last : UInt8)
    (fits : reading.total + entries.length ≤ maxOut) : VctReading maxOut × Bool :=
  if number ∈ reading.seen then (reading.store entries fits, true)
  else (reading.count entries number last fits, !(reading.count entries number last fits).complete)

/-- What an attempt does with a section. -/
def take (reading : VctReading maxOut) (sec : List UInt8) : VctReading maxOut × Bool :=
  match read : psipParseTvct sec (maxOut - reading.total) with
  | none => (reading, true)
  | some parsed => reading.accept parsed.1 parsed.2.1 parsed.2.2 (reading.fits_of_parsed read)

theorem take_of_none {reading : VctReading maxOut} {sec : List UInt8}
    (read : psipParseTvct sec (maxOut - reading.total) = none) :
    reading.take sec = (reading, true) := by
  unfold take
  split
  · rfl
  · rename_i parsed found
    rw [read] at found
    cases found

theorem take_of_some {reading : VctReading maxOut} {sec : List UInt8}
    {parsed : List TvctEntry × UInt8 × UInt8}
    (read : psipParseTvct sec (maxOut - reading.total) = some parsed) :
    reading.take sec =
      reading.accept parsed.1 parsed.2.1 parsed.2.2 (reading.fits_of_parsed read) := by
  unfold take
  split
  · rename_i found
    rw [read] at found
    cases found
  · rename_i also found
    rw [read] at found
    cases found
    rfl

/-- An attempt; a read that fails, or reads nothing, ends the loop. -/
def attempt (reading : VctReading maxOut) (delivery : Option (List UInt8)) :
    VctReading maxOut × Bool :=
  let reading := { reading with attempts := reading.attempts + 1 }
  match delivery with
  | none | some [] => (reading, false)
  | some sec => reading.take sec

/-- The loop, over what the reads will return. -/
def run (reading : VctReading maxOut) : List (Option (List UInt8)) → VctReading maxOut
  | [] => reading
  | delivery :: deliveries =>
      if reading.attempts < 8 ∧ reading.total < maxOut then
        if (reading.attempt delivery).2 then (reading.attempt delivery).1.run deliveries
        else (reading.attempt delivery).1
      else reading

/-- What `read_vct` leaves: the entries that count. -/
def entries (reading : VctReading maxOut) : List TvctEntry :=
  reading.out.take reading.total

end VctReading

/-- A section that `psip_parse_tvct` accepts: its entries and the two numbers. -/
structure VctSection where
  entries : List TvctEntry
  number : UInt8
  last : UInt8
  deriving DecidableEq, Repr

/-- The section as a whole; it has at most 255 entries. -/
def vctSection (sec : List UInt8) : Option VctSection :=
  (psipParseTvct sec 255).map fun parsed => ⟨parsed.1, parsed.2.1, parsed.2.2⟩

/-- The well-formed sections among some deliveries. -/
def vctSections (deliveries : List (Option (List UInt8))) : List VctSection :=
  deliveries.filterMap fun delivery => delivery.bind vctSection

/-- The first of each section number. -/
def newSections (deliveries : List (Option (List UInt8))) : List VctSection :=
  FirstByKey.firsts VctSection.number (vctSections deliveries)

/-- All sections were seen up to the last one, as the newest that counts has it. -/
def CompleteVct (deliveries : List (Option (List UInt8))) : Prop :=
  ∃ newest, (newSections deliveries).getLast? = some newest ∧
    ∀ number ≤ newest.last, number ∈ (vctSections deliveries).map VctSection.number

/-- A read that fails or reads nothing. -/
def TimedOut (delivery : Option (List UInt8)) : Prop :=
  delivery = none ∨ delivery = some []

/-- The entries of the sections that count. -/
def vctEntries (deliveries : List (Option (List UInt8))) : List TvctEntry :=
  (newSections deliveries).flatMap VctSection.entries

/-- Nothing more is read after some deliveries. -/
def Finished (maxOut : Nat) (deliveries : List (Option (List UInt8))) : Prop :=
  deliveries.length = 8 ∨ maxOut ≤ (vctEntries deliveries).length ∨
    (∃ delivery ∈ deliveries.getLast?, TimedOut delivery) ∨ CompleteVct deliveries

theorem tvctEntries_min (sec : List UInt8) (last channels room off : Nat) :
    tvctEntries sec last (min channels room) off =
      (tvctEntries sec last channels off).take room := by
  induction channels generalizing room off with
  | zero => rw [Nat.zero_min, tvctEntries, List.take_nil]
  | succ channels ih =>
      cases room with
      | zero => rw [Nat.min_zero, tvctEntries, List.take_zero]
      | succ room =>
          rw [Nat.succ_min_succ, tvctEntries, tvctEntries]
          split
          · rw [List.take_succ_cons, ih]
          · rw [List.take_nil]

/-- With less room, the first entries of the section are stored. -/
theorem psipParseTvct_section (sec : List UInt8) (room : Nat) :
    psipParseTvct sec room =
      (vctSection sec).map fun section_ =>
        (section_.entries.take room, section_.number, section_.last) := by
  have all : min (sec.getD 9 0).toNat 255 = (sec.getD 9 0).toNat := by
    have := (sec.getD 9 0).toNat_lt
    omega
  unfold vctSection psipParseTvct
  cases sectionTotal sec with
  | none => rfl
  | some total => simp only [Option.map_some, all, tvctEntries_min]

section Concat

variable {past : List (Option (List UInt8))} {delivery : Option (List UInt8)}

theorem vctSections_concat_none (malformed : delivery.bind vctSection = none) :
    vctSections (past ++ [delivery]) = vctSections past := by
  simp only [vctSections, List.filterMap_append, List.filterMap_cons, malformed, List.filterMap_nil,
    List.append_nil]

theorem vctSections_concat_some {section_ : VctSection}
    (wellFormed : delivery.bind vctSection = some section_) :
    vctSections (past ++ [delivery]) = vctSections past ++ [section_] := by
  simp only [vctSections, List.filterMap_append, List.filterMap_cons, wellFormed,
    List.filterMap_nil]

theorem newSections_concat_none (malformed : delivery.bind vctSection = none) :
    newSections (past ++ [delivery]) = newSections past := by
  rw [newSections, vctSections_concat_none malformed, newSections]

/-- A section is new if its number is. -/
theorem newSections_concat_some {section_ : VctSection}
    (wellFormed : delivery.bind vctSection = some section_) :
    newSections (past ++ [delivery]) =
      if section_.number ∈ (vctSections past).map VctSection.number then newSections past
      else newSections past ++ [section_] := by
  rw [newSections, vctSections_concat_some wellFormed, FirstByKey.firsts_concat, newSections]

theorem bind_vctSection_of_timedOut (timedOut : TimedOut delivery) :
    delivery.bind vctSection = none := by
  rcases timedOut with rfl | rfl <;> rfl

end Concat

/-- The variables that depend on what the deliveries were. -/
structure Follows {maxOut : Nat} (past : List (Option (List UInt8)))
    (reading : VctReading maxOut) : Prop where
  entries : reading.entries = (vctEntries past).take maxOut
  seen : ∀ number, number ∈ reading.seen ↔ number ∈ (vctSections past).map VctSection.number
  lastSection : reading.lastSection = (newSections past).getLast?.map VctSection.last

section Attempt

variable {maxOut : Nat} {past : List (Option (List UInt8))} {reading : VctReading maxOut}

theorem VctReading.length_entries (reading : VctReading maxOut) :
    reading.entries.length = reading.total := by
  rw [VctReading.entries, List.length_take, reading.out_length, Nat.min_eq_left reading.total_le]

theorem VctReading.entries_store (reading : VctReading maxOut) {entries : List TvctEntry}
    (fits : reading.total + entries.length ≤ maxOut) :
    (reading.store entries fits).entries = reading.entries := by
  have inside : (reading.out.take reading.total).length = reading.total := reading.length_entries
  rw [VctReading.entries, VctReading.entries, VctReading.store]
  dsimp only
  rw [List.append_assoc, List.take_append_of_le_length (Nat.le_of_eq inside.symm), List.take_take,
    Nat.min_self]

theorem VctReading.entries_count (reading : VctReading maxOut) {entries : List TvctEntry}
    (fits : reading.total + entries.length ≤ maxOut) (number last : UInt8) :
    (reading.count entries number last fits).entries = reading.entries ++ entries := by
  have inside : (reading.out.take reading.total).length = reading.total := reading.length_entries
  unfold VctReading.entries VctReading.count VctReading.store
  dsimp only
  apply List.take_left'
  rw [List.length_append, inside]

theorem Follows.total_eq (follows : Follows past reading) :
    reading.total = min maxOut (vctEntries past).length := by
  rw [← reading.length_entries, follows.entries, List.length_take]

/-- The loop sees that the table is complete when it is. -/
theorem Follows.complete_iff (follows : Follows past reading) :
    reading.complete = true ↔ CompleteVct past := by
  unfold VctReading.complete CompleteVct
  rw [follows.lastSection]
  cases (newSections past).getLast? with
  | none => simp
  | some newest =>
      simp only [Option.map_some, List.all_eq_true, List.mem_range, decide_eq_true_eq,
        Option.some.injEq, exists_eq_left', follows.seen]
      constructor
      · intro all number small
        have found := all number.toNat (Nat.lt_succ_of_le (UInt8.le_iff_toNat_le.mp small))
        rwa [UInt8.ofNat_toNat] at found
      · intro all s small
        apply all
        rw [UInt8.le_iff_toNat_le, UInt8.toNat_ofNat']
        exact Nat.le_trans (Nat.mod_le _ _) (Nat.le_of_lt_succ small)

/-- What counts once a section with a new number was read. -/
theorem Follows.count (follows : Follows past reading) (room : reading.total < maxOut)
    {sec : List UInt8} {section_ : VctSection} (found : vctSection sec = some section_)
    (fits : reading.total + (section_.entries.take (maxOut - reading.total)).length ≤ maxOut)
    (new : section_.number ∉ reading.seen) :
    Follows (past ++ [some sec]) (reading.count _ section_.number section_.last fits) := by
  have wellFormed : (some sec).bind vctSection = some section_ := found
  have number : section_.number ∉ (vctSections past).map VctSection.number := fun old =>
    new ((follows.seen _).mpr old)
  have sections : newSections (past ++ [some sec]) = newSections past ++ [section_] := by
    rw [newSections_concat_some wellFormed, if_neg number]
  have short : (vctEntries past).length = reading.total := by
    have total := follows.total_eq
    omega
  refine ⟨?_, ?_, ?_⟩
  · have all : vctEntries (past ++ [some sec]) = vctEntries past ++ section_.entries := by
      rw [vctEntries, sections, List.flatMap_append, List.flatMap_singleton, vctEntries]
    rw [reading.entries_count, follows.entries, all, List.take_append, short,
      List.take_of_length_le (by omega : (vctEntries past).length ≤ maxOut)]
  · intro other
    rw [vctSections_concat_some wellFormed, List.map_append, List.mem_append, List.map_singleton,
      List.mem_singleton, ← follows.seen other]
    exact List.mem_cons.trans or_comm
  · rw [sections, List.getLast?_concat]
    rfl

/-- A section that is read. -/
theorem Follows.take (follows : Follows past reading) (room : reading.total < maxOut)
    (open_ : ¬ CompleteVct past) (sec : List UInt8) :
    Follows (past ++ [some sec]) (reading.take sec).1 ∧
      ((reading.take sec).2 = false ↔ CompleteVct (past ++ [some sec])) := by
  -- A section that does not count leaves everything as it is.
  have skipped (same : newSections (past ++ [some sec]) = newSections past)
      (keys : ∀ number, number ∈ (vctSections (past ++ [some sec])).map VctSection.number ↔
        number ∈ (vctSections past).map VctSection.number)
      {next : VctReading maxOut} (entries : next.entries = reading.entries)
      (seen : next.seen = reading.seen) (last : next.lastSection = reading.lastSection) :
      Follows (past ++ [some sec]) next ∧ (true = false ↔ CompleteVct (past ++ [some sec])) := by
    have still : ¬ CompleteVct (past ++ [some sec]) := by
      unfold CompleteVct
      simp only [same, keys]
      exact open_
    refine ⟨⟨?_, ?_, ?_⟩, iff_of_false (by decide) still⟩
    · rw [entries, follows.entries, vctEntries, vctEntries, same]
    · intro number
      rw [seen, follows.seen, keys]
    · rw [last, follows.lastSection, same]
  have parsing := psipParseTvct_section sec (maxOut - reading.total)
  cases found : vctSection sec with
  | none =>
      have malformed : (some sec).bind vctSection = none := found
      rw [found, Option.map_none] at parsing
      rw [VctReading.take_of_none parsing]
      apply skipped (newSections_concat_none malformed) _ rfl rfl rfl
      rw [vctSections_concat_none malformed]
      exact fun _ => Iff.rfl
  | some section_ =>
      have wellFormed : (some sec).bind vctSection = some section_ := found
      rw [found, Option.map_some] at parsing
      have fits := reading.fits_of_parsed parsing
      rw [VctReading.take_of_some parsing, VctReading.accept]
      by_cases old : section_.number ∈ reading.seen
      · have before := (follows.seen _).mp old
        rw [if_pos old]
        apply skipped _ _ (reading.entries_store fits) rfl rfl
        · rw [newSections_concat_some wellFormed, if_pos before]
        · intro number
          rw [vctSections_concat_some wellFormed, List.map_append, List.mem_append,
            List.map_singleton, List.mem_singleton]
          constructor
          · rintro (is | rfl)
            · exact is
            · exact before
          · exact Or.inl
      · have counted := follows.count room found fits old
        rw [if_neg old]
        refine ⟨counted, ?_⟩
        rw [Bool.not_eq_false', counted.complete_iff]

theorem attempts_take (reading : VctReading maxOut) (sec : List UInt8) :
    (reading.take sec).1.attempts = reading.attempts := by
  unfold VctReading.take
  split
  · rfl
  · unfold VctReading.accept
    split <;> rfl

theorem attempts_attempt (reading : VctReading maxOut) (delivery : Option (List UInt8)) :
    (reading.attempt delivery).1.attempts = reading.attempts + 1 := by
  unfold VctReading.attempt
  dsimp only
  split
  · rfl
  · rfl
  · rw [attempts_take]

/-- A read that fails leaves what was read. -/
theorem Follows.timedOut (follows : Follows past reading) {delivery : Option (List UInt8)}
    (timedOut : TimedOut delivery) : Follows (past ++ [delivery]) reading := by
  have malformed := bind_vctSection_of_timedOut timedOut
  have sections := @newSections_concat_none past _ malformed
  refine ⟨?_, ?_, ?_⟩
  · rw [follows.entries, vctEntries, vctEntries, sections]
  · rw [vctSections_concat_none malformed]
    exact follows.seen
  · rw [sections]
    exact follows.lastSection

/-- What an attempt does. -/
theorem Follows.attempt (follows : Follows past reading) (room : reading.total < maxOut)
    (open_ : ¬ CompleteVct past) (delivery : Option (List UInt8)) :
    Follows (past ++ [delivery]) (reading.attempt delivery).1 ∧
      ((reading.attempt delivery).2 = false ↔
        TimedOut delivery ∨ CompleteVct (past ++ [delivery])) := by
  have counted : Follows past { reading with attempts := reading.attempts + 1 } :=
    ⟨follows.entries, follows.seen, follows.lastSection⟩
  unfold VctReading.attempt
  dsimp only
  split
  · exact ⟨counted.timedOut (Or.inl rfl), iff_of_true rfl (Or.inl (Or.inl rfl))⟩
  · exact ⟨counted.timedOut (Or.inr rfl), iff_of_true rfl (Or.inl (Or.inr rfl))⟩
  · rename_i sec notEmpty
    have taken := counted.take room open_ sec
    have read : ¬ TimedOut (some sec) := by
      rintro (none_ | empty)
      · cases none_
      · exact notEmpty (Option.some.inj empty)
    exact ⟨taken.1, taken.2.trans (or_iff_right read).symm⟩

end Attempt

/-- What the loop does from where it stands. -/
theorem Follows.run {maxOut : Nat} {past : List (Option (List UInt8))}
    {reading : VctReading maxOut} (follows : Follows past reading)
    (attempts : reading.attempts = past.length) (open_ : ¬ CompleteVct past)
    (read : ∀ delivery ∈ past.getLast?, ¬ TimedOut delivery)
    (notYet : ∀ k < past.length, ¬ Finished maxOut (past.take k))
    (deliveries : List (Option (List UInt8))) :
    ∃ consumed, consumed ≤ (past ++ deliveries).length ∧
      (reading.run deliveries).attempts = consumed ∧
      Follows ((past ++ deliveries).take consumed) (reading.run deliveries) ∧
      (∀ k < consumed, ¬ Finished maxOut ((past ++ deliveries).take k)) ∧
      (consumed < (past ++ deliveries).length →
        Finished maxOut ((past ++ deliveries).take consumed)) := by
  induction deliveries generalizing past reading with
  | nil =>
      rw [List.append_nil]
      refine ⟨past.length, Nat.le_refl _, attempts, ?_, notYet, fun less => absurd less (Nat.lt_irrefl _)⟩
      rw [List.take_length]
      exact follows
  | cons delivery deliveries ih =>
      have few : past.length ≤ 8 := by
        by_contra many
        apply notYet 8 (Nat.lt_of_not_le many)
        exact Or.inl (List.length_take_of_le (Nat.le_of_not_le many))
      have finished_iff : Finished maxOut past ↔
          ¬ (reading.attempts < 8 ∧ reading.total < maxOut) := by
        have total := follows.total_eq
        have neither : ¬ ((∃ delivery ∈ past.getLast?, TimedOut delivery) ∨ CompleteVct past) :=
          not_or.mpr ⟨fun ⟨last, is, timedOut⟩ => read last is timedOut, open_⟩
        rw [Finished, or_iff_left neither, attempts]
        omega
      have front : (past ++ delivery :: deliveries).take past.length = past := List.take_left
      have whole : past ++ delivery :: deliveries = (past ++ [delivery]) ++ deliveries := by
        rw [List.append_assoc, List.singleton_append]
      rw [VctReading.run]
      split
      · rename_i room
        obtain ⟨next, stops_iff⟩ := follows.attempt room.2 open_ delivery
        have counted : (reading.attempt delivery).1.attempts = (past ++ [delivery]).length := by
          rw [attempts_attempt, attempts, List.length_append, List.length_singleton]
        have notFinished : ∀ k < (past ++ [delivery]).length,
            ¬ Finished maxOut ((past ++ [delivery]).take k) := by
          intro k small
          rw [List.length_append, List.length_singleton] at small
          rw [List.take_append_of_le_length (Nat.le_of_lt_succ small)]
          rcases Nat.lt_or_eq_of_le (Nat.le_of_lt_succ small) with earlier | rfl
          · exact notYet k earlier
          · rw [List.take_length, finished_iff]
            exact not_not_intro room
        rw [whole]
        split
        · rename_i goesOn
          obtain ⟨stillRead, stillOpen⟩ := not_or.mp fun stops =>
            absurd (stops_iff.mpr stops) (by rw [goesOn]; decide)
          apply ih next counted stillOpen _ notFinished
          intro last is
          rw [List.getLast?_concat] at is
          exact Option.some.inj is ▸ stillRead
        · rename_i stopped
          have stops := stops_iff.mp (Bool.not_eq_true _ ▸ stopped)
          have all : ((past ++ [delivery]) ++ deliveries).take (past ++ [delivery]).length =
              past ++ [delivery] := List.take_left
          refine ⟨(past ++ [delivery]).length, ?_, counted, ?_, ?_, ?_⟩
          · exact (List.prefix_append (past ++ [delivery]) deliveries).length_le
          · rw [all]
            exact next
          · intro k small
            rw [List.take_append_of_le_length (Nat.le_of_lt small)]
            exact notFinished k small
          · intro _
            rw [all]
            refine Or.inr (Or.inr (stops.imp_left fun timedOut => ?_))
            exact ⟨delivery, List.getLast?_concat, timedOut⟩
      · rename_i full
        refine ⟨past.length, ?_, attempts, ?_, ?_, ?_⟩
        · rw [List.length_append]
          exact Nat.le_add_right _ _
        · rw [front]
          exact follows
        · intro k small
          rw [List.take_append_of_le_length (Nat.le_of_lt small)]
          exact notYet k small
        · intro _
          rw [front, finished_iff]
          exact full

/-- Whatever is delivered: the entries are those of the first well-formed
delivery of each section number, as far as they fit, among the deliveries up to
the first point at which nothing more is needed. -/
theorem read_vct_firsts {maxOut : Nat} (out : { out : List TvctEntry // out.length = maxOut })
    (deliveries : List (Option (List UInt8))) :
    ∃ consumed ≤ 8, consumed ≤ deliveries.length ∧
      ((VctReading.start out).run deliveries).attempts = consumed ∧
      ((VctReading.start out).run deliveries).entries =
        (vctEntries (deliveries.take consumed)).take maxOut ∧
      ((newSections (deliveries.take consumed)).map VctSection.number).Nodup ∧
      (∀ k < consumed, ¬ Finished maxOut (deliveries.take k)) ∧
      (consumed < deliveries.length → Finished maxOut (deliveries.take consumed)) := by
  have initially : Follows [] (VctReading.start out) := ⟨List.take_nil.symm, fun _ => Iff.rfl, rfl⟩
  have open_ : ¬ CompleteVct [] := by
    rintro ⟨newest, none_, -⟩
    cases none_
  obtain ⟨consumed, bound, attempts, follows, notYet, finished⟩ :=
    initially.run rfl open_ nofun nofun deliveries
  rw [List.nil_append] at bound follows notYet finished
  refine ⟨consumed, ?_, bound, attempts, follows.entries, FirstByKey.nodup_firsts _ _, notYet,
    finished⟩
  by_contra many
  apply notYet 8 (Nat.lt_of_not_le many)
  exact Or.inl (List.length_take_of_le (Nat.le_trans (Nat.le_of_not_le many) bound))

/-- An attempt that reads nothing. -/
theorem entries_run_timedOut {maxOut : Nat} (reading : VctReading maxOut)
    {delivery : Option (List UInt8)} (timedOut : TimedOut delivery)
    (deliveries : List (Option (List UInt8))) :
    (reading.run (delivery :: deliveries)).entries = reading.entries := by
  rw [VctReading.run]
  rcases timedOut with rfl | rfl
  · split <;> rfl
  · split <;> rfl

/-- An attempt that reads a section, before the rest of the loop. -/
theorem entries_run_section (reading : VctReading tvctMaxChannels) {left : Nat}
    {deliveries : List (Option (List UInt8))} (count : reading.attempts + left = 8)
    (sec : List UInt8)
    (rest : ∀ (reading : VctReading tvctMaxChannels) {left : Nat}, reading.attempts + left = 8 →
      (reading.run deliveries).entries =
        readVctLoop left deliveries reading.seen reading.entries) :
    (if (reading.take sec).2 then (reading.take sec).1.run deliveries
      else (reading.take sec).1).entries =
      match psipParseTvct sec (tvctMaxChannels - reading.total) with
      | none => readVctLoop left deliveries reading.seen reading.entries
      | some (entries, number, last) =>
          if number ∈ reading.seen then readVctLoop left deliveries reading.seen reading.entries
          else if (List.range (last.toNat + 1)).all fun s =>
              UInt8.ofNat s ∈ number :: reading.seen then reading.entries ++ entries
          else readVctLoop left deliveries (number :: reading.seen) (reading.entries ++ entries) := by
  cases read : psipParseTvct sec (tvctMaxChannels - reading.total) with
  | none =>
      rw [VctReading.take_of_none read]
      exact rest reading count
  | some parsed =>
      have fits := reading.fits_of_parsed read
      rw [VctReading.take_of_some read, VctReading.accept]
      dsimp only
      by_cases old : parsed.2.1 ∈ reading.seen
      · rw [if_pos old, if_pos old, if_pos rfl, ← reading.entries_store fits]
        exact rest (reading.store parsed.1 fits) count
      · have counted := reading.entries_count fits parsed.2.1 parsed.2.2
        rw [if_neg old, if_neg old, ← counted]
        have complete : (reading.count parsed.1 parsed.2.1 parsed.2.2 fits).complete =
            (List.range (parsed.2.2.toNat + 1)).all fun s =>
              decide (UInt8.ofNat s ∈ parsed.2.1 :: reading.seen) := rfl
        rw [← complete]
        cases (reading.count parsed.1 parsed.2.1 parsed.2.2 fits).complete with
        | true => rfl
        | false => exact rest (reading.count parsed.1 parsed.2.1 parsed.2.2 fits) count

/-- The loop of a scan, which keeps no array, reads the same. -/
theorem entries_run (reading : VctReading tvctMaxChannels) {left : Nat}
    (count : reading.attempts + left = 8) (deliveries : List (Option (List UInt8))) :
    (reading.run deliveries).entries =
      readVctLoop left deliveries reading.seen reading.entries := by
  induction deliveries generalizing reading left with
  | nil => cases left <;> rfl
  | cons delivery deliveries ih =>
      cases left with
      | zero =>
          rw [VctReading.run, if_neg fun room => absurd room.1 (by omega), readVctLoop]
      | succ left =>
          match delivery with
          | none => exact entries_run_timedOut reading (Or.inl rfl) deliveries
          | some [] => exact entries_run_timedOut reading (Or.inr rfl) deliveries
          | some (byte :: bytes) =>
              rw [VctReading.run, readVctLoop, reading.length_entries]
              · by_cases full : tvctMaxChannels ≤ reading.total
                · rw [if_pos full, if_neg fun room => absurd room.2 (Nat.not_lt.mpr full)]
                · obtain ⟨counted, is⟩ :
                      ∃ counted, counted = { reading with attempts := reading.attempts + 1 } :=
                    ⟨_, rfl⟩
                  have taken : reading.attempt (some (byte :: bytes)) = counted.take (byte :: bytes) :=
                    is ▸ rfl
                  have seen : counted.seen = reading.seen := is ▸ rfl
                  have entries : counted.entries = reading.entries := is ▸ rfl
                  have room : tvctMaxChannels - counted.total = tvctMaxChannels - reading.total :=
                    is ▸ rfl
                  have attempts : counted.attempts + left = 8 := by
                    rw [is]
                    dsimp only
                    omega
                  rw [if_neg full, if_pos ⟨by omega, Nat.lt_of_not_le full⟩, taken, ← seen, ← entries,
                    ← room]
                  exact entries_run_section counted attempts (byte :: bytes) ih
              · nofun

/-- What `ScanPsip` has for `read_vct`. -/
theorem readVct_eq (out : { out : List TvctEntry // out.length = tvctMaxChannels })
    (reads : MuxReads) :
    readVct reads = ((VctReading.start out).run reads.vcts).entries :=
  (entries_run (VctReading.start out) rfl reads.vcts).symm

end HdhrEmu
