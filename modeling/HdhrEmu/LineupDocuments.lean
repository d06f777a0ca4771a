import HdhrEmu.Lineup

/-!
# What the lineup documents say

A client reads the lineup as a JSON text or as a playlist.  Both list the
channels in ascending order; but the JSON document takes every short name as
it is, so that it is what the handler means only if the names are texts that
may stand in a JSON string.
-/

namespace HdhrEmu

open CString CheckedMemory

/-- The number and the name that an element of the lineup gives a channel. -/
def guideOf? : Json → Option (CStr × CStr)
  | .obj members =>
      if (members.map Prod.fst).Nodup then
        match members.lookup "GuideNumber".toList, members.lookup "GuideName".toList with
        | some (.str number), some (.str name) => some (number, name)
        | _, _ => none
      else none
  | _ => none

/-- The text is a JSON array with an element for each of the channels. -/
def ListsJson (text : CStr) (channels : List DvbChannel) : Prop :=
  ∃ elements, Json.Denotes text (.arr elements) ∧
    elements.map guideOf? = channels.map fun ch => some (guideNumber ch, ch.shortName)

/-- A channel as it should be read. -/
def lineupEntry (ip : CStr) (ch : DvbChannel) : Json :=
  .obj [("GuideNumber".toList, .str (guideNumber ch)), ("GuideName".toList, .str ch.shortName),
    ("URL".toList, .str (autoUrl ip ch))]

theorem guideOf?_lineupEntry (ip : CStr) (ch : DvbChannel) :
    guideOf? (lineupEntry ip ch) = some (guideNumber ch, ch.shortName) :=
  rfl

/-- A member of an object with a name that stands for itself: what is read next. -/
theorem members?_jsonMember {bound : Nat} {name value text rest : CStr}
    (verbatim : Json.Verbatim name) (enough : name.length ≤ bound)
    (begins : Json.skip text = jsonMember name value ++ rest) :
    Json.members? (bound + 2) text = (Json.string? bound (value ++ '"' :: rest)).bind fun content =>
      match Json.skip content.2 with
      | ',' :: text =>
          (Json.members? (bound + 1) text).map fun read =>
            ((name, .str content.1) :: read.1, read.2)
      | '}' :: text => some ([(name, .str content.1)], text)
      | _ => none := by
  apply Json.members?_string verbatim enough
  rw [begins]
  simp only [jsonMember, List.cons_append, List.append_assoc, List.nil_append]

theorem members?_more {bound : Nat} {name value text rest : CStr} (verbatim : Json.Verbatim name)
    (verbatimValue : Json.Verbatim value) (enough : name.length ≤ bound)
    (enoughValue : value.length < bound)
    (begins : Json.skip text = jsonMember name value ++ ',' :: rest) :
    Json.members? (bound + 2) text =
      (Json.members? (bound + 1) rest).map fun read =>
        ((name, .str value) :: read.1, read.2) := by
  have separator : Json.skip (',' :: rest) = ',' :: rest := rfl
  rw [members?_jsonMember verbatim enough begins,
    Json.string?_verbatim verbatimValue _ enoughValue, Option.bind_some]
  simp only [separator]

theorem members?_last {bound : Nat} {name value text rest : CStr} (verbatim : Json.Verbatim name)
    (verbatimValue : Json.Verbatim value) (enough : name.length ≤ bound)
    (enoughValue : value.length < bound)
    (begins : Json.skip text = jsonMember name value ++ '}' :: rest) :
    Json.members? (bound + 2) text = some ([(name, .str value)], rest) := by
  have separator : Json.skip ('}' :: rest) = '}' :: rest := rfl
  rw [members?_jsonMember verbatim enough begins,
    Json.string?_verbatim verbatimValue _ enoughValue, Option.bind_some]
  simp only [separator]

/-- What is behind the name of a channel. -/
def behindName (ip : CStr) (ch : DvbChannel) (rest : CStr) : CStr :=
  ',' :: ' ' :: (jsonMember "URL".toList (autoUrl ip ch) ++ '}' :: rest)

theorem verbatim_of_inAddress {text : CStr}
    (address : ∀ character ∈ text, inAddress character = true) : Json.Verbatim text := by
  apply Json.verbatim_of_ascii
  intro character member
  have inside := address character member
  simp only [inAddress, Bool.and_eq_true, decide_eq_true_eq, bne_iff_ne] at inside
  obtain ⟨⟨low, high⟩, notBackslash⟩ := inside
  have lowCode : 45 ≤ character.toNat := low
  have highCode : character.toNat ≤ 122 := high
  have notQuote : character ≠ '"' := by
    rintro rfl
    exact absurd low (by decide)
  refine ⟨?_, by omega⟩
  rw [Json.isPlain, bne_iff_ne.mpr notQuote, bne_iff_ne.mpr notBackslash,
    decide_eq_true (show 0x20 ≤ character.toNat by omega)]
  rfl

/-- The text of an object is read as it is meant up to the name of the channel. -/
theorem value?_jsonObject {ip : CStr} {ch : DvbChannel} {bound : Nat} (rest : CStr)
    (enough : 23 ≤ bound) (storable : StorableChannel ch) :
    Json.value? (bound + 4) (jsonObject ip ch ++ rest) =
      (Json.members? (bound + 2) (' ' :: (jsonMember "GuideName".toList ch.shortName ++
        behindName ip ch rest))).map fun read =>
          (.obj (("GuideNumber".toList, .str (guideNumber ch)) :: read.1), read.2) := by
  have written : jsonObject ip ch ++ rest = '{' :: (jsonMember "GuideNumber".toList (guideNumber ch) ++
      ',' :: ' ' :: (jsonMember "GuideName".toList ch.shortName ++ behindName ip ch rest)) := by
    simp only [jsonObject, behindName, List.cons_append, List.append_assoc, List.nil_append]
  have short := length_guideNumber storable
  have first := @members?_more (bound + 1) _ _ _ _
    (verbatim_of_inAddress (List.all_eq_true.mp (by decide : "GuideNumber".toList.all inAddress = true)))
    (verbatim_of_inAddress fun _ => @inAddress_guideNumber ch _) (by
      rw [show "GuideNumber".toList.length = 11 from rfl]
      omega) (by omega)
    (rfl : Json.skip (jsonMember "GuideNumber".toList (guideNumber ch) ++ ',' :: ' ' ::
      (jsonMember "GuideName".toList ch.shortName ++ behindName ip ch rest)) = _)
  have opened : Json.value? (bound + 4) (jsonObject ip ch ++ rest) =
      (Json.members? (bound + 3) (jsonMember "GuideNumber".toList (guideNumber ch) ++
        ',' :: ' ' :: (jsonMember "GuideName".toList ch.shortName ++ behindName ip ch rest))).map
          fun read => (.obj read.1, read.2) := by
    rw [written, Json.value?]
    rfl
  rw [opened, first, Option.map_map]
  rfl

theorem verbatim_guideName : Json.Verbatim "GuideName".toList :=
  verbatim_of_inAddress (List.all_eq_true.mp (by decide))

theorem length_guideName : "GuideName".toList.length = 9 :=
  rfl

/-- A channel whose name stands for itself is read as it is meant. -/
theorem value?_lineupEntry {ip : CStr} {ch : DvbChannel} {bound : Nat} (rest : CStr)
    (enough : 60 ≤ bound) (storable : StorableChannel ch) (address : ip.length ≤ 15)
    (plain : ∀ character ∈ ip, inAddress character = true)
    (verbatim : Json.Verbatim ch.shortName) :
    Json.value? (bound + 4) (jsonObject ip ch ++ rest) = some (lineupEntry ip ch, rest) := by
  obtain ⟨bound, rfl⟩ : ∃ less, bound = less + 1 := ⟨bound - 1, by omega⟩
  have short := storable.short
  have url := length_autoUrl address storable
  have named := @members?_more (bound + 1) "GuideName".toList ch.shortName
    (' ' :: (jsonMember "GuideName".toList ch.shortName ++ behindName ip ch rest))
    (' ' :: (jsonMember "URL".toList (autoUrl ip ch) ++ '}' :: rest)) verbatim_guideName verbatim
    (by rw [length_guideName]; omega) (by omega) rfl
  have located := @members?_last bound "URL".toList (autoUrl ip ch)
    (' ' :: (jsonMember "URL".toList (autoUrl ip ch) ++ '}' :: rest)) rest
    (verbatim_of_inAddress (List.all_eq_true.mp (by decide))) (verbatim_of_inAddress fun _ => inAddress_autoUrl plain)
    (by rw [show "URL".toList.length = 3 from rfl]; omega) (by omega) rfl
  rw [value?_jsonObject rest (by omega) storable, named, located]
  rfl

/-- An element that gives the channel its name was read from a name that stands
for itself: a name that ends elsewhere is followed by neither `,` nor `}`. -/
theorem verbatim_of_guideOf? {ip : CStr} {ch : DvbChannel} {bound : Nat} {rest behind : CStr}
    {value : Json} (storable : StorableChannel ch)
    (read : Json.value? bound (jsonObject ip ch ++ rest) = some (value, behind))
    (listed : guideOf? value = some (guideNumber ch, ch.shortName)) :
    Json.Verbatim ch.shortName := by
  have larger := Json.value?_mono read (Nat.le_add_right bound (23 + 4))
  rw [← Nat.add_assoc, value?_jsonObject rest (by omega) storable,
    members?_jsonMember verbatim_guideName (by rw [length_guideName]; omega) (by rfl)] at larger
  obtain ⟨members, inside, result⟩ := Option.map_eq_some_iff.mp larger
  obtain ⟨⟨content, left_⟩, found, next⟩ := Option.bind_eq_some_iff.mp inside
  cases result
  have named : ∃ more, members.1 = ("GuideName".toList, .str content) :: more := by
    split at next
    · obtain ⟨more, -, rfl⟩ := Option.map_eq_some_iff.mp next
      exact ⟨more.1, rfl⟩
    · cases next
      exact ⟨[], rfl⟩
    · cases next
  rcases Json.string?_front found with ⟨-, verbatim⟩ | ⟨less, more, ended⟩
  · apply verbatim
    obtain ⟨others, same⟩ := named
    rw [same, guideOf?] at listed
    split at listed
    · cases listed
      rfl
    · cases listed
  · -- The string has ended at the quotation mark of the next key.
    have key := @Json.string?_verbatim (less + 3) [',', ' '] (Json.verbatim_of_ascii (by simp [Json.isPlain]))
      ("URL".toList ++ '"' :: ':' :: ' ' :: '"' :: (autoUrl ip ch ++ '"' :: '}' :: rest)) (by simp)
    have same : behindName ip ch rest = [',', ' '] ++ '"' :: ("URL".toList ++ '"' :: ':' :: ' ' ::
        '"' :: (autoUrl ip ch ++ '"' :: '}' :: rest)) := by
      simp [behindName, jsonMember]
    rw [← same, Json.string?_mono ended (Nat.le_add_right less 3)] at key
    cases key
    cases next

theorem skip_jsonLine (ip : CStr) (ch : DvbChannel) (last : Bool) (rest : CStr) :
    Json.skip (jsonLine ip ch last ++ rest) =
      jsonObject ip ch ++ ((if last then [] else [',']) ++ '\n' :: rest) := by
  have written : jsonLine ip ch last ++ rest = ' ' :: ' ' :: (jsonObject ip ch ++
      ((if last then [] else [',']) ++ '\n' :: rest)) := by
    simp only [jsonLine, List.cons_append, List.append_assoc, List.nil_append]
  rw [written]
  rfl

/-- The end of the array. -/
theorem elements?_last {ip : CStr} {ch : DvbChannel} {bound : Nat} {value : Json}
    (read : Json.value? bound (jsonObject ip ch ++ '\n' :: "]\n".toList) =
      some (value, '\n' :: "]\n".toList)) :
    Json.elements? (bound + 1) (jsonLine ip ch true ++ "]\n".toList) =
      some ([value], ['\n']) := by
  rw [Json.elements?, skip_jsonLine]
  change (Json.value? bound (jsonObject ip ch ++ '\n' :: "]\n".toList)).bind _ = _
  rw [read, Option.bind_some]
  rfl

/-- One line of many. -/
theorem elements?_more {ip : CStr} {ch : DvbChannel} {bound : Nat} {value : Json} {rest : CStr}
    (read : Json.value? bound (jsonObject ip ch ++ ',' :: '\n' :: rest) =
      some (value, ',' :: '\n' :: rest)) :
    Json.elements? (bound + 1) (jsonLine ip ch false ++ rest) =
      (Json.elements? bound rest).map fun read => (value :: read.1, read.2) := by
  have newline : Json.skip ('\n' :: rest) = Json.skip rest := rfl
  rw [Json.elements?, skip_jsonLine]
  change (Json.value? bound (jsonObject ip ch ++ ',' :: '\n' :: rest)).bind _ = _
  rw [read, Option.bind_some]
  change (Json.elements? bound ('\n' :: rest)).map _ = _
  rw [← Json.elements?_skip, newline, Json.elements?_skip]

section Lines

variable {ip : CStr} (address : ip.length ≤ 15)
  (plain : ∀ character ∈ ip, inAddress character = true)

include address plain

/-- Lines of channels whose names stand for themselves are read as they are meant. -/
theorem elements?_linesText {channels : List DvbChannel} {bound : Nat} (nonempty : channels ≠ [])
    (storable : ∀ ch ∈ channels, StorableChannel ch)
    (verbatim : ∀ ch ∈ channels, Json.Verbatim ch.shortName)
    (enough : channels.length + 64 ≤ bound) :
    Json.elements? bound (linesText (jsonLine ip) channels ++ "]\n".toList) =
      some (channels.map (lineupEntry ip), ['\n']) := by
  induction channels generalizing bound with
  | nil => exact absurd rfl nonempty
  | cons ch channels ih =>
      rw [List.length_cons] at enough
      rw [List.forall_mem_cons] at storable verbatim
      obtain ⟨bound, rfl⟩ : ∃ less, bound = less + 4 + 1 := ⟨bound - 5, by omega⟩
      have read (rest : CStr) := @value?_lineupEntry ip ch bound rest (by omega) storable.1 address
        plain verbatim.1
      cases channels with
      | nil =>
          rw [linesText, linesText, List.append_nil]
          exact elements?_last (read _)
      | cons next channels =>
          rw [linesText, List.append_assoc, List.isEmpty_cons, elements?_more (read _),
            ih (List.cons_ne_nil _ _) storable.2 verbatim.2 (by omega)]
          rfl

/-- Only lines of such channels are read as they are meant. -/
theorem verbatim_of_elements? {channels : List DvbChannel} {bound : Nat} {elements : List Json}
    {behind : CStr} (storable : ∀ ch ∈ channels, StorableChannel ch)
    (read : Json.elements? bound (linesText (jsonLine ip) channels ++ "]\n".toList) =
      some (elements, behind))
    (listed : elements.map guideOf? =
      channels.map fun ch => some (guideNumber ch, ch.shortName)) :
    ∀ ch ∈ channels, Json.Verbatim ch.shortName := by
  induction channels generalizing bound elements with
  | nil => exact fun _ member => absurd member List.not_mem_nil
  | cons ch channels ih =>
      rw [List.forall_mem_cons] at storable ⊢
      rw [linesText, List.append_assoc] at read
      have first : Json.Verbatim ch.shortName := by
        cases bound with
        | zero => cases read
        | succ bound =>
            rw [Json.elements?, skip_jsonLine] at read
            obtain ⟨value, inner, others⟩ := Option.bind_eq_some_iff.mp read
            apply verbatim_of_guideOf? storable.1 inner
            obtain ⟨more, rfl⟩ : ∃ more, elements = value.1 :: more := by
              split at others
              · obtain ⟨more, -, same⟩ := Option.map_eq_some_iff.mp others
                cases same
                exact ⟨more.1, rfl⟩
              · cases others
                exact ⟨[], rfl⟩
              · cases others
            exact (List.cons.inj listed).1
      refine ⟨first, ?_⟩
      cases channels with
      | nil => exact fun _ member => absurd member List.not_mem_nil
      | cons next channels =>
          have larger := Json.elements?_mono read (Nat.le_add_right bound (60 + 4 + 1))
          rw [List.isEmpty_cons, ← Nat.add_assoc, elements?_more
            (value?_lineupEntry _ (by omega) storable.1 address plain first)] at larger
          obtain ⟨more, inner, same⟩ := Option.map_eq_some_iff.mp larger
          cases same
          exact ih storable.2 inner (List.cons.inj listed).2

omit address plain in
theorem value?_jsonText {channels : List DvbChannel} (bound : Nat) (nonempty : channels ≠ []) :
    Json.value? (bound + 1) (Json.skip (jsonText ip channels)) =
      (Json.elements? bound (linesText (jsonLine ip) channels ++ "]\n".toList)).map fun read =>
        (.arr read.1, read.2) := by
  obtain ⟨ch, channels, rfl⟩ := List.exists_cons_of_ne_nil nonempty
  have written : jsonText ip (ch :: channels) =
      '[' :: '\n' :: (linesText (jsonLine ip) (ch :: channels) ++ "]\n".toList) := rfl
  have skipped : Json.skip ('\n' :: (linesText (jsonLine ip) (ch :: channels) ++ "]\n".toList)) =
      Json.skip (linesText (jsonLine ip) (ch :: channels) ++ "]\n".toList) := rfl
  have front : Json.skip (linesText (jsonLine ip) (ch :: channels) ++ "]\n".toList) =
      jsonObject ip ch ++ ((if channels.isEmpty then [] else [',']) ++
        '\n' :: (linesText (jsonLine ip) channels ++ "]\n".toList)) := by
    rw [linesText, List.append_assoc, skip_jsonLine]
  rw [← Json.elements?_skip]
  rw [written]
  change Json.value? (bound + 1) ('[' :: '\n' :: _) = _
  rw [Json.value?]
  simp only [skipped, front]
  rfl

/-- The document lists the channels if and only if their names stand for themselves. -/
theorem listsJson_iff {channels : List DvbChannel}
    (storable : ∀ ch ∈ channels, StorableChannel ch) :
    ListsJson (jsonText ip channels) channels ↔ ∀ ch ∈ channels, Json.Verbatim ch.shortName := by
  cases channels with
  | nil =>
      constructor
      · exact fun _ _ member => absurd member List.not_mem_nil
      · exact fun _ => ⟨[], ⟨1, ['\n'], rfl, rfl⟩, rfl⟩
  | cons ch channels =>
      constructor
      · rintro ⟨elements, ⟨bound, rest, read, -⟩, listed⟩
        have larger := Json.value?_mono read (Nat.le_succ bound)
        rw [value?_jsonText bound (List.cons_ne_nil _ _)] at larger
        obtain ⟨inside, inner, same⟩ := Option.map_eq_some_iff.mp larger
        cases same
        exact verbatim_of_elements? address plain storable inner listed
      · intro verbatim
        refine ⟨(ch :: channels).map (lineupEntry ip), ⟨(ch :: channels).length + 65, ['\n'], ?_, rfl⟩, ?_⟩
        · rw [value?_jsonText _ (List.cons_ne_nil _ _),
            elements?_linesText address plain (List.cons_ne_nil _ _) storable verbatim (Nat.le_refl _)]
          rfl
        · rw [List.map_map]
          exact List.map_congr_left fun ch _ => guideOf?_lineupEntry ip ch

end Lines

example : jsonText (localIpForPeer none) [⟨2, 1, "KTV".toList, 2, .atscVsb, 57000000, 1, 1, 0x30,
      0x50, 0x50, 2, 0x51, 0x81⟩] =
    ("[\n  \x7b\"GuideNumber\": \"2.1\", \"GuideName\": \"KTV\", " ++
      "\"URL\": \"http://0.0.0.0:80/auto/v2.1\"\x7d\n]\n").toList := by
  decide +kernel

/-- A channel as an entry of the playlist. -/
def playlistEntry (ip : CStr) (ch : DvbChannel) : M3u.Entry where
  duration := "-1".toList
  attributes := tvgAttributes ch
  title := guideNumber ch ++ ' ' :: ch.shortName
  location := autoUrl ip ch

theorem quote_not_mem_attrName (name : CStr) : '"' ∉ attrName name := by
  rw [attrName, List.mem_map]
  rintro ⟨character, -, same⟩
  split at same
  · cases same
  · rename_i differs
    exact differs same

theorem newline_not_mem_attrName {name : CStr} (clean : '\n' ∉ name) : '\n' ∉ attrName name := by
  rw [attrName, List.mem_map]
  rintro ⟨character, member, same⟩
  split at same
  · cases same
  · rw [same] at member
    exact clean member

theorem newline_not_mem_info {ch : DvbChannel} (storable : StorableChannel ch) :
    '\n' ∉ M3u.info "-1".toList (tvgAttributes ch) (guideNumber ch ++ ' ' :: ch.shortName) := by
  have number : '\n' ∉ guideNumber ch := not_mem_guideNumber ch (by decide)
  have written {name value : CStr} (cleanName : '\n' ∉ name) (cleanValue : '\n' ∉ value) :
      '\n' ∉ M3u.attributeText name value := by
    simp only [M3u.attributeText, List.mem_cons, List.mem_append, List.not_mem_nil, not_or]
    exact ⟨by decide, cleanName, by decide, by decide, cleanValue, by decide, not_false⟩
  unfold M3u.info
  simp only [tvgAttributes, List.flatMap_cons, List.flatMap_nil, List.mem_cons, List.mem_append,
    List.not_mem_nil, not_or]
  exact ⟨by decide, by decide, ⟨written (by decide) number,
    written (by decide) (newline_not_mem_attrName storable.oneLine), not_false⟩,
    by decide, number, by decide, storable.oneLine⟩

theorem entryOf?_m3uLine (ip : CStr) (ch : DvbChannel) :
    M3u.entryOf? (M3u.info "-1".toList (tvgAttributes ch) (guideNumber ch ++ ' ' :: ch.shortName))
      (autoUrl ip ch) = some (playlistEntry ip ch) := by
  apply M3u.entryOf?_info
  · exact List.all_eq_true.mp (by decide)
  · intro pair member
    simp only [tvgAttributes, List.mem_cons, List.not_mem_nil, or_false] at member
    rcases member with rfl | rfl
    · exact (by decide : '=' ∉ "tvg-chno".toList)
    · exact (by decide : '=' ∉ "tvg-name".toList)
  · intro pair member
    simp only [tvgAttributes, List.mem_cons, List.not_mem_nil, or_false] at member
    rcases member with rfl | rfl
    · exact not_mem_guideNumber ch (by decide)
    · exact quote_not_mem_attrName _

theorem entries?_linesText {ip : CStr} (plain : ∀ character ∈ ip, inAddress character = true)
    {channels : List DvbChannel} (storable : ∀ ch ∈ channels, StorableChannel ch) :
    M3u.entries? channels.length (linesText (m3uLine ip) channels) =
      some (channels.map (playlistEntry ip)) := by
  induction channels with
  | nil => rfl
  | cons ch channels ih =>
      rw [List.forall_mem_cons] at storable
      have written : linesText (m3uLine ip) (ch :: channels) =
          M3u.info "-1".toList (tvgAttributes ch) (guideNumber ch ++ ' ' :: ch.shortName) ++ '\n' ::
            (autoUrl ip ch ++ '\n' :: linesText (m3uLine ip) channels) := by
        rw [linesText]
        unfold m3uLine
        rw [List.append_assoc, List.cons_append, List.append_assoc]
        rfl
      rw [written]
      exact M3u.entries?_cons (newline_not_mem_info storable.1)
        (fun member => absurd (inAddress_autoUrl plain member) (by decide))
        (entryOf?_m3uLine ip ch) (ih storable.2)

theorem lists_m3uText {ip : CStr} (plain : ∀ character ∈ ip, inAddress character = true)
    {channels : List DvbChannel} (storable : ∀ ch ∈ channels, StorableChannel ch) :
    M3u.Lists (m3uText ip channels) (channels.map (playlistEntry ip)) :=
  ⟨linesText (m3uLine ip) channels,
    @splitAt?_append '\n' "#EXTM3U".toList _ (by decide), channels.length,
    entries?_linesText plain storable⟩

example : m3uText (localIpForPeer none) [⟨2, 1, "K\"TV".toList, 2, .atscVsb, 57000000, 1, 1, 0x30,
      0x50, 0x50, 2, 0x51, 0x81⟩] =
    ("#EXTM3U\n#EXTINF:-1 tvg-chno=\"2.1\" tvg-name=\"K'TV\",2.1 K\"TV\n" ++
      "http://0.0.0.0:80/auto/v2.1\n").toList := by
  decide +kernel

/-- The channels are all of the table in ascending order, and both documents
are served whole and list them. -/
structure Lineup.Sound (lineup : Lineup) (channels : List DvbChannel) : Prop where
  complete : channels.Perm lineup.db.channels
  ascending : (channels.map DvbChannel.key).Pairwise ChannelKey.Precedes
  json : Answers (handleLineupJson · lineup.ip lineup.db) (jsonText lineup.ip channels)
  jsonLists : ListsJson (jsonText lineup.ip channels) channels
  m3u : Answers (handleLineupM3u · lineup.ip lineup.db) (m3uText lineup.ip channels)
  m3uLists : M3u.Lists (m3uText lineup.ip channels) (channels.map (playlistEntry lineup.ip))

/-- A lineup is sound if and only if every short name in it may stand in a
JSON string as it is: if it is UTF-8 without quotation marks, backslashes and
control characters. -/
theorem lineup_sound_iff (lineup : Lineup) :
    (∃ channels, lineup.Sound channels) ↔
      ∀ ch ∈ lineup.db.channels, Json.Verbatim ch.shortName := by
  have address := length_localIpForPeer lineup.address
  have plain : ∀ character ∈ lineup.ip, inAddress character = true :=
    fun _ => inAddress_localIpForPeer
  constructor
  · rintro ⟨channels, sound⟩ ch member
    have storable : ∀ ch ∈ channels, StorableChannel ch :=
      fun ch member => lineup.stored.storable ch (sound.complete.mem_iff.mp member)
    exact (listsJson_iff address plain storable).mp sound.jsonLists ch
      (sound.complete.mem_iff.mpr member)
  · intro verbatim
    refine ⟨lineup.sorted, lineup.perm_sorted, ?_, lineup.answers_json, ?_, lineup.answers_m3u, ?_⟩
    · exact pairwise_qsortMajorMinor (((List.take_sublist _ _).map _).nodup lineup.db.keys_nodup)
    · exact (listsJson_iff address plain lineup.storable_sorted).mpr fun ch member =>
        verbatim ch (lineup.perm_sorted.mem_iff.mp member)
    · exact lists_m3uText plain lineup.storable_sorted

/-- One program, 2.1, with the name `K"TV`. -/
def quotedReads : MuxReads where
  pat := some [0, 0xB0, 13, 0, 1, 0xC1, 0, 0, 0, 1, 0xE0, 0x30, 0, 0, 0, 0]
  filterOpens := fun _ => true
  pmts :=
    [(0, some [2, 0xB0, 23, 0, 1, 0xC1, 0, 0, 0xE0, 0x50, 0xF0, 0,
      0x02, 0xE0, 0x50, 0xF0, 0, 0x81, 0xE0, 0x51, 0xF0, 0, 0, 0, 0, 0])]
  vcts :=
    [some [0xC8, 0xF0, 43, 0, 1, 0xC1, 0, 0, 0, 1,
      0, 75, 0, 34, 0, 84, 0, 86, 0, 0, 0, 0, 0, 0, 0xF0, 0x08, 0x01, 4, 0, 0, 0, 0, 0, 1, 0, 1,
      0x0D, 0xC2, 0, 1, 0xFC, 0, 0, 0, 0, 0]]

def quotedLineup : Lineup where
  db := (dvbScanReadPsip ⟨2, 57000000, .atscVsb⟩ quotedReads .empty).1
  stored := .scan .empty (by decide)
  address := none

/-- The quotation mark in the name ends the JSON string. -/
theorem quoted_name_breaks_lineup : ¬ ∃ channels, quotedLineup.Sound channels := by
  rintro ⟨channels, sound⟩
  have found : quotedLineup.db.channels.any fun ch => ch.shortName = "K\"TV".toList := by
    decide +kernel
  obtain ⟨ch, member, named⟩ := List.any_eq_true.mp found
  have verbatim := (listsJson_iff (length_localIpForPeer none) (fun _ => inAddress_localIpForPeer)
    fun ch member => quotedLineup.stored.storable ch (sound.complete.mem_iff.mp member)).mp
      sound.jsonLists ch (sound.complete.mem_iff.mpr member)
  rw [of_decide_eq_true named] at verbatim
  exact (Json.plain_not_quote verbatim.2).1 (by decide)

end HdhrEmu
