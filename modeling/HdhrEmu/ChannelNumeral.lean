import HdhrEmu.ChannelValue
import Mathlib.Data.List.TakeWhile

/-!
# Taking a channel value at its word

Every form of a `/tunerN/channel` value ends in a number.  The number is read
with `strtoul` and cut to 32 bits, or with `atoi`; neither says whether there
was a number, whether something follows it, or whether it fits.  What is
accepted therefore means what it says exactly when its numeral is complete and
small enough.
-/

namespace HdhrEmu

open CString

/-- What stands in front of an explicit frequency. -/
inductive FrequencyPrefix : CStr → Prop
  | vsb : FrequencyPrefix "8vsb".toList
  | qam : FrequencyPrefix "qam".toList
  | bandwidth {digits : CStr} (isNumeral : IsNumeral digits) :
      FrequencyPrefix ("auto".toList ++ (digits ++ ['t']))

/-- What a number behind a colon means, by what is in front of it: `unsigned`
where the code takes it for unsigned, `signed` where it takes it for an `int`. -/
inductive Means (channelmap : CStr) (unsigned : Nat) (signed : Int) (parsed : ChannelValue) :
    CStr → Prop
  | frequency {front : CStr} (kind : FrequencyPrefix front)
      (freq : parsed.freq.toNat = unsigned) : Means channelmap unsigned signed parsed front
  | autoChannel (small : unsigned < 1000)
      (freq : parsed.freq = resolveChannelInMap channelmap unsigned)
      (rfChannel : parsed.rfChannel = unsigned) :
      Means channelmap unsigned signed parsed "auto".toList
  | autoFrequency (large : 1000 ≤ unsigned) (freq : parsed.freq.toNat = unsigned) :
      Means channelmap unsigned signed parsed "auto".toList
  | named {front : CStr} (supported : front ∈ supportedMaps)
      (freq : parsed.freq = resolveChannelInMap front signed)
      (rfChannel : parsed.rfChannel = signed) : Means channelmap unsigned signed parsed front

/-- The value is of one of the five forms, with a complete number, and what was
parsed is what it says. -/
def TakenAtItsWord (channelmap value : CStr) (parsed : ChannelValue) : Prop :=
  ∃ front num, value = front ++ ':' :: num ∧ IsNumeral num ∧
    Means channelmap (numeralValue num) (numeralValue num) parsed front

/-- The numbers below this one survive, behind a map name and elsewhere. -/
def numeralLimit (front : CStr) : Nat :=
  if front ∈ supportedMaps then 2 ^ 31 else 2 ^ 32

/-- What is behind the first colon is a complete number, and not too large. -/
def WellNumbered (value : CStr) : Prop :=
  ∃ front num, value = front ++ ':' :: num ∧ ':' ∉ front ∧ IsNumeral num ∧
    numeralValue num < numeralLimit front

theorem colon_notMem_bandwidth {digits : CStr} (isNumeral : IsNumeral digits) :
    ':' ∉ "auto".toList ++ (digits ++ ['t']) := by
  simp only [List.mem_append, not_or]
  refine ⟨by decide, fun member => ?_, by decide⟩
  have digit := isNumeral.2 ':' member
  revert digit
  decide

theorem FrequencyPrefix.colon {front : CStr} (kind : FrequencyPrefix front) : ':' ∉ front := by
  cases kind with
  | vsb => decide
  | qam => decide
  | bandwidth isNumeral => exact colon_notMem_bandwidth isNumeral

theorem FrequencyPrefix.notSupported {front : CStr} (kind : FrequencyPrefix front) :
    front ∉ supportedMaps := by
  cases kind with
  | vsb => decide
  | qam => decide
  | bandwidth isNumeral =>
      have starts : ∀ name ∈ supportedMaps, name.head? ≠ some 'a' := by decide
      exact fun member => starts _ member rfl

theorem Means.colon {channelmap front : CStr} {unsigned : Nat} {signed : Int}
    {parsed : ChannelValue} (means : Means channelmap unsigned signed parsed front) :
    ':' ∉ front := by
  have absent : ∀ name ∈ supportedMaps, ':' ∉ name := by decide
  cases means with
  | frequency kind _ => exact kind.colon
  | autoChannel _ _ _ => decide
  | autoFrequency _ _ => decide
  | named supported _ _ => exact absent _ supported

theorem isPrefixOf?_eq_some {front text rest : CStr}
    (found : front.isPrefixOf? text = some rest) : text = front ++ rest := by
  induction front generalizing text with
  | nil =>
      cases found
      rfl
  | cons first front ih =>
      cases text with
      | nil => cases found
      | cons character text =>
          change (if (first == character) = true then front.isPrefixOf? text else none) = _ at found
          split at found
          · rename_i same
            rw [beq_iff_eq] at same
            rw [ih found, same, List.cons_append]
          · cases found

/-- A value has one first colon. -/
theorem first_colon_unique {front num front' num' : CStr} (absent : ':' ∉ front)
    (absent' : ':' ∉ front') (same : front ++ ':' :: num = front' ++ ':' :: num') :
    front = front' ∧ num = num' := by
  have parts := congrArg (splitAt? ':') same
  rw [splitAt?_append absent, splitAt?_append absent', Option.some_inj, Prod.mk.injEq] at parts
  exact parts

theorem autoBandwidth?_eq_some {value text : CStr} (found : autoBandwidth? value = some text) :
    ∃ digits, IsNumeral digits ∧ value = "auto".toList ++ (digits ++ ['t']) ++ ':' :: text := by
  unfold autoBandwidth? at found
  split at found
  · rename_i rest auto
    split at found
    · rename_i digit
      have behind := isPrefixOf?_eq_some found
      have parts : rest = rest.takeWhile Char.isDigit ++ ("t:".toList ++ text) := by
        rw [← behind, List.takeWhile_append_dropWhile]
      refine ⟨rest.takeWhile Char.isDigit, ⟨?_, ?_⟩, ?_⟩
      · cases rest with
        | nil => cases digit
        | cons first rest =>
            have firstDigit : first.isDigit = true := digit
            rw [List.takeWhile_cons_of_pos firstDigit]
            exact List.cons_ne_nil _ _
      · exact fun _ member => List.mem_takeWhile_imp member
      · rw [isPrefixOf?_eq_some auto, List.append_assoc, List.append_assoc]
        exact congrArg ("auto".toList ++ ·) parts
    · cases found
  · cases found

theorem explicitFrequency_eq_some {channelmap text : CStr} {parsed : ChannelValue}
    (found : explicitFrequency channelmap text = some parsed) :
    parsed.freq.toNat = strtoul text % 2 ^ 32 := by
  simp only [explicitFrequency] at found
  split at found
  · cases found
  · cases found
    exact UInt32.toNat_ofNat'

theorem autoValue_eq_some {channelmap text : CStr} {parsed : ChannelValue} (signed : Int)
    (found : autoValue channelmap text = some parsed) :
    Means channelmap (strtoul text % 2 ^ 32) signed parsed "auto".toList := by
  have value : (UInt32.ofNat (strtoul text)).toNat = strtoul text % 2 ^ 32 := UInt32.toNat_ofNat'
  simp only [autoValue] at found
  split at found
  · cases found
  · split at found
    · rename_i small
      split at found
      · cases found
      · cases found
        rw [value]
        exact .autoChannel (value ▸ UInt32.lt_iff_toNat_lt.mp small) rfl rfl
    · rename_i large
      cases found
      have atLeast : 1000 ≤ (UInt32.ofNat (strtoul text)).toNat :=
        Nat.le_of_not_lt fun small => large (UInt32.lt_iff_toNat_lt.mpr small)
      exact .autoFrequency (value ▸ atLeast) value

theorem supported_of_resolves {mapName : CStr} {channel : Int}
    (covered : resolveChannelInMap mapName channel ≠ 0) : mapName ∈ supportedMaps := by
  unfold resolveChannelInMap at covered
  split at covered
  · rename_i same
    rw [same, supportedMaps]
    exact List.mem_cons_self
  · split at covered
    · rename_i map found
      have name : map.name = mapName := by simpa using List.find?_some found
      rw [← name, supportedMaps]
      exact List.mem_cons_of_mem _ (List.mem_map_of_mem (List.mem_of_find?_eq_some found))
    · exact absurd rfl covered

theorem namedMapValue_eq_some {value : CStr} {parsed : ChannelValue}
    (found : namedMapValue value = some parsed) :
    ∃ front text, value = front ++ ':' :: text ∧ front ∈ supportedMaps ∧
      parsed.freq = resolveChannelInMap front (atoi text) ∧ parsed.rfChannel = atoi text := by
  unfold namedMapValue at found
  split at found
  · rename_i mapName text parts
    split at found
    · dsimp only at found
      split at found
      · cases found
      · rename_i covered
        cases found
        exact ⟨mapName, text, (splitAt?_eq_some parts).1, supported_of_resolves covered, rfl, rfl⟩
    · cases found
  · cases found

/-- What is accepted is of one of the five forms, and the numeral is taken for
what `strtoul` and `atoi` leave of it. -/
theorem means_of_parsed {channelmap value : CStr} {parsed : ChannelValue}
    (accepted : parseChannelValue channelmap value = some parsed) :
    ∃ front text, value = front ++ ':' :: text ∧
      Means channelmap (strtoul text % 2 ^ 32) (atoi text) parsed front := by
  unfold parseChannelValue at accepted
  split at accepted
  · rename_i text bandwidth
    obtain ⟨digits, isNumeral, rfl⟩ := autoBandwidth?_eq_some bandwidth
    exact ⟨_, text, rfl, .frequency (.bandwidth isNumeral) (explicitFrequency_eq_some accepted)⟩
  · split at accepted
    · rename_i text auto
      have parts : value = "auto:".toList ++ text := isPrefixOf?_eq_some auto
      exact ⟨"auto".toList, text, parts, autoValue_eq_some _ accepted⟩
    · split at accepted
      · rename_i text explicit
        have freq := explicitFrequency_eq_some accepted
        rcases Option.or_eq_some_iff.mp explicit with vsb | ⟨-, qam⟩
        · have parts : value = "8vsb:".toList ++ text := isPrefixOf?_eq_some vsb
          exact ⟨"8vsb".toList, text, parts, .frequency .vsb freq⟩
        · have parts : value = "qam:".toList ++ text := isPrefixOf?_eq_some qam
          exact ⟨"qam".toList, text, parts, .frequency .qam freq⟩
      · obtain ⟨front, text, parts, supported, freq, rfChannel⟩ := namedMapValue_eq_some accepted
        exact ⟨front, text, parts, .named supported freq rfChannel⟩

/-- A number that is taken at its word is below the limit. -/
theorem Means.lt_limit {channelmap front : CStr} {n : Nat} {parsed : ChannelValue}
    (means : Means channelmap n n parsed front) (nonzero : parsed.freq ≠ 0) :
    n < numeralLimit front := by
  have word : parsed.freq.toNat < 2 ^ 32 := parsed.freq.toNat_lt
  have auto : numeralLimit "auto".toList = 2 ^ 32 := if_neg (by decide)
  cases means with
  | frequency kind freq =>
      rw [numeralLimit, if_neg kind.notSupported]
      omega
  | autoChannel small _ _ =>
      rw [auto]
      omega
  | autoFrequency large freq =>
      rw [auto]
      omega
  | named supported freq _ =>
      rw [freq] at nonzero
      have bound := resolveChannelInMap_bound nonzero
      rw [numeralLimit, if_pos supported]
      omega

/-- A value that is accepted means what it says exactly when there is a
complete number behind its first colon that is not too large. -/
theorem channel_value_taken_at_its_word_iff {channelmap value : CStr} {parsed : ChannelValue}
    (accepted : parseChannelValue channelmap value = some parsed) :
    TakenAtItsWord channelmap value parsed ↔ WellNumbered value := by
  constructor
  · rintro ⟨front, num, rfl, isNumeral, means⟩
    exact ⟨front, num, rfl, means.colon, isNumeral,
      means.lt_limit (parseChannelValue_freq_ne_zero accepted)⟩
  · rintro ⟨front, num, rfl, absent, isNumeral, small⟩
    obtain ⟨front', text, same, means⟩ := means_of_parsed accepted
    obtain ⟨rfl, rfl⟩ := first_colon_unique absent means.colon same
    refine ⟨front, num, rfl, isNumeral, ?_⟩
    have le : numeralLimit front ≤ 2 ^ 32 := by
      unfold numeralLimit
      split <;> decide
    have small32 : numeralValue num < 2 ^ 32 := Nat.lt_of_lt_of_le small le
    rw [strtoul_of_isNumeral isNumeral small32, Nat.mod_eq_of_lt small32] at means
    cases means with
    | frequency kind freq => exact .frequency kind freq
    | autoChannel channel freq rfChannel => exact .autoChannel channel freq rfChannel
    | autoFrequency large freq => exact .autoFrequency large freq
    | named supported freq rfChannel =>
        rw [numeralLimit, if_pos supported] at small
        rw [atoi_of_isNumeral isNumeral small] at freq rfChannel
        exact .named supported freq rfChannel

theorem channel_value_taken_at_its_word_iff_us_cable_23 :
    TakenAtItsWord "us-bcast".toList "us-cable:23".toList ⟨219000000, 23⟩ ↔
      WellNumbered "us-cable:23".toList :=
  channel_value_taken_at_its_word_iff (by decide)

/-- The frequency 4294967298 Hz is taken for channel 2. -/
theorem huge_frequency_taken_for_channel :
    parseChannelValue "us-bcast".toList "auto:4294967298".toList = some ⟨57000000, 2⟩ ∧
      ¬ TakenAtItsWord "us-bcast".toList "auto:4294967298".toList ⟨57000000, 2⟩ := by
  have accepted : parseChannelValue "us-bcast".toList "auto:4294967298".toList =
      some ⟨57000000, 2⟩ := by decide +kernel
  refine ⟨accepted, ?_⟩
  rintro ⟨front, num, same, isNumeral, means⟩
  have parts : "auto:4294967298".toList = "auto".toList ++ ':' :: "4294967298".toList := rfl
  obtain ⟨rfl, rfl⟩ := first_colon_unique (by decide) means.colon (parts.symm.trans same)
  have small := means.lt_limit (by decide)
  revert small
  decide +kernel

end HdhrEmu
