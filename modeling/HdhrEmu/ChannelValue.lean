import HdhrEmu.ChannelMap

/-!
# The value of a `/tunerN/channel` SET

A value names either a frequency (`auto<digits>t:`, `8vsb:`, `qam:`, a large
`auto:`) or a channel number, of the active map (a small `auto:`) or of a map
that the value names itself (`us-cable:23`).
-/

namespace HdhrEmu

open CString

/-- What `parse_channel_value` stores through its two pointers. -/
structure ChannelValue where
  freq : UInt32
  rfChannel : Int
  deriving DecidableEq, Repr

/-- The numeral of an explicit frequency; zero is refused. -/
def explicitFrequency (channelmap text : CStr) : Option ChannelValue :=
  let freq := UInt32.ofNat (strtoul text)
  if freq = 0 then none
  else some ⟨freq, reverseResolveFreqInMap channelmap freq⟩

/-- The text after `auto<digits>t:`, if the value starts that way. -/
def autoBandwidth? (value : CStr) : Option CStr :=
  match "auto".toList.isPrefixOf? value with
  | some rest =>
      if (rest.head?.any Char.isDigit) then
        "t:".toList.isPrefixOf? (rest.dropWhile Char.isDigit)
      else none
  | none => none

/-- `auto:`, where a number below 1000 is a channel of the active map. -/
def autoValue (channelmap text : CStr) : Option ChannelValue :=
  let n := UInt32.ofNat (strtoul text)
  if n = 0 then none
  else if n < 1000 then
    let freq := resolveChannelInMap channelmap n.toNat
    if freq = 0 then none else some ⟨freq, n.toNat⟩
  else some ⟨n, reverseResolveFreqInMap channelmap n⟩

/-- `<mapname>:N`; the name is copied into a buffer of 16 bytes. -/
def namedMapValue (value : CStr) : Option ChannelValue :=
  match splitAt? ':' value with
  | some (mapName, text) =>
      if 0 < mapName.length ∧ mapName.length < 16 then
        let channel := atoi text
        let freq := resolveChannelInMap mapName channel
        if freq = 0 then none else some ⟨freq, channel⟩
      else none
  | none => none

def parseChannelValue (channelmap value : CStr) : Option ChannelValue :=
  match autoBandwidth? value with
  | some text => explicitFrequency channelmap text
  | none =>
      match "auto:".toList.isPrefixOf? value with
      | some text => autoValue channelmap text
      | none =>
          match ("8vsb:".toList.isPrefixOf? value).or ("qam:".toList.isPrefixOf? value) with
          | some text => explicitFrequency channelmap text
          | none => namedMapValue value

/-- An accepted value never selects frequency zero, which stands for "none". -/
theorem parseChannelValue_freq_ne_zero {channelmap value : CStr} {parsed : ChannelValue}
    (accepted : parseChannelValue channelmap value = some parsed) : parsed.freq ≠ 0 := by
  have explicit {text : CStr} (found : explicitFrequency channelmap text = some parsed) :
      parsed.freq ≠ 0 := by
    simp only [explicitFrequency] at found
    split at found <;> cases found
    assumption
  unfold parseChannelValue at accepted
  split at accepted
  · exact explicit accepted
  · split at accepted
    · simp only [autoValue] at accepted
      repeat' split at accepted
      all_goals cases accepted
      all_goals assumption
    · split at accepted
      · exact explicit accepted
      · simp only [namedMapValue] at accepted
        repeat' split at accepted
        all_goals cases accepted
        all_goals assumption

private theorem isPrefixOf?_cons_ne {first other : Char} {rest text : CStr}
    (different : other ≠ first) : (first :: rest).isPrefixOf? (other :: text) = none := by
  apply if_neg
  rw [beq_iff_eq]
  exact different.symm

/-- None of the other forms of a value starts like a map name. -/
theorem parseChannelValue_eq_named (channelmap : CStr) {mapName : CStr} (text : CStr)
    (supported : mapName ∈ supportedMaps) :
    parseChannelValue channelmap (mapName ++ text) = namedMapValue (mapName ++ text) := by
  have starts : ∀ name ∈ supportedMaps,
      name ≠ [] ∧ name.head? ≠ some 'a' ∧ name.head? ≠ some '8' ∧ name.head? ≠ some 'q' := by
    decide
  obtain ⟨nonempty, differs⟩ := starts mapName supported
  obtain ⟨first, rest, rfl⟩ := List.exists_cons_of_ne_nil nonempty
  simp only [List.head?_cons, ne_eq, Option.some.injEq] at differs
  obtain ⟨notAuto, not8vsb, notQam⟩ := differs
  have auto : autoBandwidth? (first :: rest ++ text) = none := by
    rw [autoBandwidth?]
    rw [show "auto".toList.isPrefixOf? (first :: rest ++ text) = none from
      isPrefixOf?_cons_ne notAuto]
  have autoColon : "auto:".toList.isPrefixOf? (first :: rest ++ text) = none :=
    isPrefixOf?_cons_ne notAuto
  have explicit : "8vsb:".toList.isPrefixOf? (first :: rest ++ text) = none :=
    isPrefixOf?_cons_ne not8vsb
  have explicitQam : "qam:".toList.isPrefixOf? (first :: rest ++ text) = none :=
    isPrefixOf?_cons_ne notQam
  simp only [parseChannelValue, auto, autoColon, explicit, explicitQam, Option.or_none]

/-- A map name followed by a channel number is read with the named map,
whatever map is active. -/
theorem parseChannelValue_named (channelmap : CStr) {mapName : CStr} {n : Nat}
    (supported : mapName ∈ supportedMaps) (covered : resolveChannelInMap mapName n ≠ 0) :
    parseChannelValue channelmap (mapName ++ ':' :: decimal n) =
      some ⟨resolveChannelInMap mapName n, n⟩ := by
  have small : n < 2 ^ 31 := by
    have bound := resolveChannelInMap_bound covered
    omega
  have absent : ∀ name ∈ supportedMaps, ':' ∉ name := by decide
  have fits : ∀ name ∈ supportedMaps, 0 < name.length ∧ name.length < 16 := by decide
  rw [parseChannelValue_eq_named channelmap _ supported]
  simp [namedMapValue, splitAt?_append (absent _ supported), fits _ supported,
    atoi_decimal small, covered]

end HdhrEmu
