import HdhrEmu.Config
import HdhrEmu.Lib.JsonText
import HdhrEmu.LineupUrls

/-!
# Finding the device

A client finds the device by an answer to its broadcast or by the document
`/discover.json`.  Both name the device, say how many tuners it has and where
its lineup is.  The document takes four texts of the settings as they are, so
that it is what the handler means only if these may stand in a JSON string.
-/

namespace HdhrEmu

open CString ByteStream

/-- `"%08X"`. -/
def hexWord (word : UInt32) : CStr :=
  (idDigits word).map fun digit => capitalDigit digit.value

/-- The members of the document that are texts, in the order of the format. -/
def discoverTexts (cfg : Settings) (ip : CStr) : List (CStr × CStr) :=
  [("FriendlyName".toList, cfg.friendlyName),
    ("ModelNumber".toList, cfg.model),
    ("FirmwareName".toList, cfg.firmwareName),
    ("FirmwareVersion".toList, cfg.firmwareVersion),
    ("DeviceID".toList, hexWord cfg.deviceId),
    ("DeviceAuth".toList, []),
    ("BaseURL".toList, "http://".toList ++ (ip ++ ":80".toList)),
    ("LineupURL".toList, "http://".toList ++ (ip ++ ":80/lineup.json".toList))]

/-- A line of a document with one member of an object. -/
def memberLine (member : CStr × CStr) : CStr :=
  ' ' :: ' ' :: (jsonMember member.1 member.2 ++ [',', '\n'])

/-- `  "TunerCount": %d` and what is behind it. -/
def lastLine (tunerCount : Int) : CStr :=
  ' ' :: ' ' :: '"' :: ("TunerCount".toList ++ '"' :: ':' :: ' ' ::
    (decimalInt tunerCount ++ ['\n', '}', '\n']))

/-- What `handle_discover_json` prints. -/
def discoverText (cfg : Settings) (ip : CStr) : CStr :=
  '{' :: '\n' :: ((discoverTexts cfg ip).flatMap memberLine ++ lastLine cfg.tunerCount)

/-- `json` of `handle_discover_json`, of 768 bytes. -/
def handleDiscoverJson (cfg : Settings) (address : LocalAddress) : CStr :=
  truncate 768 (discoverText cfg (localIpForPeer address))

/-- What the document should say. -/
def deviceObject (cfg : Settings) (ip : CStr) : Json :=
  .obj ((discoverTexts cfg ip).map (fun member => (member.1, .str member.2)) ++
    [("TunerCount".toList, .num (decimalInt cfg.tunerCount))])

section Lines

variable {members : List (CStr × CStr)}
  (named : ∀ member ∈ members, Json.Verbatim member.1)

theorem skip_memberLine (member : CStr × CStr) (rest : CStr) :
    Json.skip (memberLine member ++ rest) =
      jsonMember member.1 member.2 ++ ',' :: '\n' :: rest := by
  have written : memberLine member ++ rest =
      ' ' :: ' ' :: (jsonMember member.1 member.2 ++ ',' :: '\n' :: rest) := by
    simp [memberLine]
  rw [written]
  rfl

include named

/-- Lines whose texts stand for themselves are read as they are meant. -/
theorem members?_memberLines {bound : Nat}
    (short : ∀ member ∈ members, member.1.length ≤ bound ∧ member.2.length < bound)
    (verbatim : ∀ member ∈ members, Json.Verbatim member.2) (rest : CStr) :
    Json.members? (bound + members.length + 1) (members.flatMap memberLine ++ rest) =
      (Json.members? (bound + 1) rest).map fun read =>
        (members.map (fun member => (member.1, .str member.2)) ++ read.1, read.2) := by
  induction members with
  | nil => simp
  | cons member members ih =>
      rw [List.forall_mem_cons] at named short verbatim
      have first := @members?_more (bound + members.length) _ _ _ _ named.1 verbatim.1
        (Nat.le_add_right_of_le short.1.1) (Nat.lt_add_right _ short.1.2)
        (skip_memberLine member (members.flatMap memberLine ++ rest))
      rw [List.flatMap_cons, List.append_assoc, List.length_cons, ← Nat.add_assoc, first,
        Json.members?_newline, ih named.2 short.2 verbatim.2, Option.map_map]
      rfl

/-- Only lines of such texts are read as they are meant. -/
theorem verbatim_of_memberLines {bound : Nat} {rest behind : CStr} {more : List (CStr × Json)}
    (read : Json.members? bound (members.flatMap memberLine ++ rest) =
      some (members.map (fun member => (member.1, .str member.2)) ++ more, behind)) :
    ∀ member ∈ members, Json.Verbatim member.2 := by
  induction members generalizing bound behind with
  | nil => exact fun _ member => absurd member List.not_mem_nil
  | cons member members ih =>
      rw [List.forall_mem_cons] at named ⊢
      have larger := Json.members?_mono read
        (Nat.le_add_right bound (member.1.length + member.2.length + 3))
      rw [List.flatMap_cons, List.append_assoc] at larger
      have line := skip_memberLine member (members.flatMap memberLine ++ rest)
      have first : Json.Verbatim member.2 := by
        rw [show bound + (member.1.length + member.2.length + 3) =
            bound + (member.1.length + member.2.length + 1) + 2 by omega,
          members?_jsonMember named.1 (by omega) line] at larger
        obtain ⟨⟨content, left_⟩, found, next⟩ := Option.bind_eq_some_iff.mp larger
        have headed : ∃ others, (member.1, Json.str content) :: others =
            (member :: members).map (fun member => (member.1, .str member.2)) ++ more := by
          split at next
          · obtain ⟨others, -, is⟩ := Option.map_eq_some_iff.mp next
            exact ⟨others.1, congrArg Prod.fst is⟩
          · exact ⟨[], congrArg Prod.fst (Option.some.inj next)⟩
          · cases next
        have same : content = member.2 := by
          obtain ⟨others, is⟩ := headed
          exact Json.str.inj (Prod.mk.inj (List.cons.inj is).1).2
        rcases Json.string?_front found with ⟨-, verbatim⟩ | ⟨less, others, ended⟩
        · exact verbatim same
        · rw [Json.string?_endOfLine] at ended
          cases ended
      refine ⟨first, ?_⟩
      rw [show bound + (member.1.length + member.2.length + 3) =
          bound + (member.1.length + member.2.length + 1) + 2 by omega,
        members?_more named.1 first (by omega) (by omega) line, Json.members?_newline] at larger
      obtain ⟨⟨others, _⟩, inner, is⟩ := Option.map_eq_some_iff.mp larger
      have rest_ : others = members.map (fun member => (member.1, .str member.2)) ++ more :=
        (List.cons.inj (congrArg Prod.fst is)).2
      rw [rest_] at inner
      exact ih named.2 inner

end Lines

theorem skip_lastLine (tunerCount : Nat) :
    Json.skip (lastLine tunerCount) = '"' :: ("TunerCount".toList ++ '"' :: ':' :: ' ' ::
      (decimal tunerCount ++ ['\n', '}', '\n'])) := by
  rw [lastLine, decimalInt_natCast]
  rfl

theorem members?_lastLine {bound : Nat} (enough : 10 ≤ bound) (tunerCount : Nat) :
    Json.members? (bound + 2) (lastLine tunerCount) =
      some ([("TunerCount".toList, .num (decimal tunerCount))], ['\n']) := by
  apply Json.members?_number _ _ _ _ _ (skip_lastLine tunerCount)
  · exact verbatim_of_inAddress (List.all_eq_true.mp (by decide))
  · exact enough
  · exact Json.stops_cons _ (by decide)
  · rfl

theorem verbatim_names (cfg : Settings) (ip : CStr) :
    ∀ member ∈ discoverTexts cfg ip, Json.Verbatim member.1 := by
  intro member listed
  apply verbatim_of_inAddress
  have names : ∀ name ∈ (discoverTexts cfg ip).map Prod.fst, name.all inAddress = true := by
    have all : (discoverTexts cfg ip).map Prod.fst =
        ["FriendlyName".toList, "ModelNumber".toList, "FirmwareName".toList,
          "FirmwareVersion".toList, "DeviceID".toList, "DeviceAuth".toList, "BaseURL".toList,
          "LineupURL".toList] := rfl
    rw [all]
    exact List.forall_iff_forall_mem.mp (by decide)
  exact List.all_eq_true.mp (names member.1 (List.mem_map_of_mem listed))

theorem value?_discoverText (cfg : Settings) (ip : CStr) (bound : Nat) :
    Json.value? (bound + 1) (discoverText cfg ip) =
      (Json.members? bound ((discoverTexts cfg ip).flatMap memberLine ++
        lastLine cfg.tunerCount)).map fun read => (.obj read.1, read.2) := by
  have front : Json.skip ('\n' :: ((discoverTexts cfg ip).flatMap memberLine ++
      lastLine cfg.tunerCount)) = Json.skip ((discoverTexts cfg ip).flatMap memberLine ++
        lastLine cfg.tunerCount) := rfl
  have first := skip_memberLine ("FriendlyName".toList, cfg.friendlyName.val)
    ((discoverTexts cfg ip).tail.flatMap memberLine ++ lastLine cfg.tunerCount)
  rw [← List.append_assoc, ← List.flatMap_cons] at first
  change Json.skip ((discoverTexts cfg ip).flatMap memberLine ++ lastLine cfg.tunerCount) = _ at first
  rw [discoverText, Json.value?, ← Json.members?_skip, first]
  simp only [front, first]
  rfl

theorem length_hexWord (word : UInt32) : (hexWord word).length = 8 :=
  rfl

/-- No text is long. -/
theorem length_discoverTexts (cfg : Settings) {ip : CStr} (address : ip.length ≤ 15) :
    ∀ member ∈ discoverTexts cfg ip, member.1.length ≤ 15 ∧ member.2.length ≤ 63 := by
  have friendly := cfg.friendlyName.property
  have model := cfg.model.property
  have firmware := cfg.firmwareName.property
  have version := cfg.firmwareVersion.property
  have base : ("http://".toList ++ (ip ++ ":80".toList)).length ≤ 63 := by
    rw [List.length_append, List.length_append, show "http://".toList.length = 7 from rfl,
      show ":80".toList.length = 3 from rfl]
    omega
  have lineup : ("http://".toList ++ (ip ++ ":80/lineup.json".toList)).length ≤ 63 := by
    rw [List.length_append, List.length_append, show "http://".toList.length = 7 from rfl,
      show ":80/lineup.json".toList.length = 15 from rfl]
    omega
  simp only [discoverTexts, List.forall_mem_cons, List.not_mem_nil, false_implies, implies_true,
    and_true]
  exact ⟨⟨by decide, by omega⟩, ⟨by decide, by omega⟩, ⟨by decide, by omega⟩,
    ⟨by decide, by omega⟩, ⟨by decide, by rw [length_hexWord]; decide⟩, by decide,
    ⟨by decide, base⟩, ⟨by decide, lineup⟩⟩

/-- The document is what it should be if and only if its texts stand for themselves. -/
theorem denotes_discoverText_iff (cfg : Settings) {ip : CStr} (address : ip.length ≤ 15) :
    Json.Denotes (discoverText cfg ip) (deviceObject cfg ip) ↔
      ∀ member ∈ discoverTexts cfg ip, Json.Verbatim member.2 := by
  have names := verbatim_names cfg ip
  have opened : Json.skip (discoverText cfg ip) = discoverText cfg ip := rfl
  constructor
  · rintro ⟨bound, rest, read, -⟩
    have larger := Json.value?_mono read (Nat.le_succ bound)
    rw [opened, value?_discoverText] at larger
    obtain ⟨⟨members, _⟩, inner, same⟩ := Option.map_eq_some_iff.mp larger
    have is : members = _ := Json.obj.inj (congrArg Prod.fst same)
    rw [is] at inner
    exact verbatim_of_memberLines names inner
  · intro verbatim
    obtain ⟨count, is⟩ : ∃ count : Nat, cfg.tunerCount.val = count :=
      Int.eq_ofNat_of_zero_le (Int.le_trans (by decide) cfg.tunerCount.property.1)
    have short : ∀ member ∈ discoverTexts cfg ip,
        member.1.length ≤ 64 ∧ member.2.length < 64 := by
      intro member listed
      have sizes := length_discoverTexts cfg address member listed
      omega
    have last : Json.members? (64 + 1) (lastLine count) =
        some ([("TunerCount".toList, .num (decimal count))], ['\n']) :=
      members?_lastLine (by decide : 10 ≤ 63) count
    refine ⟨64 + (discoverTexts cfg ip).length + 1 + 1, ['\n'], ?_, rfl⟩
    rw [opened, value?_discoverText, is, members?_memberLines names short verbatim, last,
      Option.map_some, Option.map_some, deviceObject, is, decimalInt_natCast]

theorem length_flatMap_memberLine {members : List (CStr × CStr)}
    (short : ∀ member ∈ members, member.1.length ≤ 15 ∧ member.2.length ≤ 63) :
    (members.flatMap memberLine).length ≤ 88 * members.length := by
  induction members with
  | nil => exact Nat.zero_le _
  | cons member members ih =>
      rw [List.forall_mem_cons] at short
      have others := ih short.2
      have line : (memberLine member).length = member.1.length + member.2.length + 10 := by
        simp only [memberLine, List.length_cons, List.length_append, length_jsonMember,
          List.length_nil]
      rw [List.flatMap_cons, List.length_append, List.length_cons]
      omega

/-- The document fits. -/
theorem handleDiscoverJson_eq (cfg : Settings) (address : LocalAddress) :
    handleDiscoverJson cfg address = discoverText cfg (localIpForPeer address) := by
  have lines := length_flatMap_memberLine
    (length_discoverTexts cfg (length_localIpForPeer address))
  have few : (discoverTexts cfg (localIpForPeer address)).length = 8 := rfl
  have count := cfg.tunerCount.property
  have most : (hdhrMaxTuners : Int) = 8 := rfl
  have digits := @length_decimalInt cfg.tunerCount.val (by omega)
  have last : (lastLine cfg.tunerCount).length ≤ 31 := by
    simp only [lastLine, List.length_cons, List.length_append, List.length_nil,
      show "TunerCount".toList.length = 10 from rfl]
    omega
  rw [handleDiscoverJson, truncate]
  apply List.take_of_length_le
  rw [discoverText, List.length_cons, List.length_cons, List.length_append]
  omega

/-- The four texts of the settings may stand in a JSON string. -/
def Settings.Verbatim (cfg : Settings) : Prop :=
  Json.Verbatim cfg.friendlyName.val ∧ Json.Verbatim cfg.model.val ∧
    Json.Verbatim cfg.firmwareName.val ∧ Json.Verbatim cfg.firmwareVersion.val

theorem verbatim_hexWord (word : UInt32) : Json.Verbatim (hexWord word) := by
  apply verbatim_of_inAddress
  intro character member
  obtain ⟨digit, -, rfl⟩ := List.mem_map.mp member
  have all : ∀ value < 16, inAddress (capitalDigit value) = true := by decide
  exact all digit.value digit.value_lt

theorem verbatim_discoverTexts_iff (cfg : Settings) {ip : CStr}
    (plain : ∀ character ∈ ip, inAddress character = true) :
    (∀ member ∈ discoverTexts cfg ip, Json.Verbatim member.2) ↔ cfg.Verbatim := by
  have url (behind : CStr) (letters : behind.all inAddress = true) :
      Json.Verbatim ("http://".toList ++ (ip ++ behind)) := by
    apply verbatim_of_inAddress
    simp only [List.forall_mem_append]
    exact ⟨List.all_eq_true.mp (by decide), plain, List.all_eq_true.mp letters⟩
  have base := url ":80".toList (by decide)
  have lineup := url ":80/lineup.json".toList (by decide)
  have empty : Json.Verbatim [] := ⟨.nil, rfl⟩
  simp only [discoverTexts, List.forall_mem_cons, List.not_mem_nil, false_implies, implies_true,
    and_true, base, lineup, empty, verbatim_hexWord, Settings.Verbatim]

/-- What a client knows about a device that it has found. -/
structure FoundDevice where
  deviceId : Nat
  tunerCount : Int
  baseUrl : CStr
  lineupUrl : CStr
  deriving DecidableEq

/-- What the settings say about the device. -/
def Settings.device (cfg : Settings) (ip : CStr) : FoundDevice where
  deviceId := cfg.deviceId.toNat
  tunerCount := cfg.tunerCount
  baseUrl := "http://".toList ++ (ip ++ ":80".toList)
  lineupUrl := "http://".toList ++ (ip ++ ":80/lineup.json".toList)

/-- What a client takes from the document. -/
def foundInDocument : Json → Option FoundDevice
  | .obj members =>
      match members.lookup "DeviceID".toList, members.lookup "TunerCount".toList,
        members.lookup "BaseURL".toList, members.lookup "LineupURL".toList with
      | some (.str deviceId), some (.num tunerCount), some (.str baseUrl), some (.str lineupUrl) =>
          (scanInt tunerCount).map fun count =>
            ⟨strtoulAnyBase ("0x".toList ++ deviceId), count.1, baseUrl, lineupUrl⟩
      | _, _, _, _ => none
  | _ => none

/-- The text in the bytes of an item. -/
def textOf (value : List UInt8) : CStr :=
  (value.takeWhile (· ≠ 0)).map fun byte => Char.ofNat byte.toNat

def valueOf? (items : List Tlv.Item) (tag : UInt8) : Option (List UInt8) :=
  (items.find? fun item => item.tag = tag).map Tlv.Item.value

/-- What a client takes from an answer. -/
def foundInAnswer (items : List Tlv.Item) : Option FoundDevice :=
  match valueOf? items hdhrTagDeviceId, valueOf? items hdhrTagTunerCount,
    valueOf? items hdhrTagBaseUrl, valueOf? items hdhrTagLineupUrl with
  | some deviceId, some tunerCount, some baseUrl, some lineupUrl =>
      some ⟨ByteFields.number deviceId, ByteFields.number tunerCount, textOf baseUrl,
        textOf lineupUrl⟩
  | _, _, _, _ => none

theorem foundInDocument_deviceObject (cfg : Settings) (ip : CStr) :
    foundInDocument (deviceObject cfg ip) = some (cfg.device ip) := by
  have count : scanInt (decimalInt cfg.tunerCount) = some (cfg.tunerCount.val, []) := by
    have range := cfg.tunerCount.property
    have most : (hdhrMaxTuners : Int) = 8 := rfl
    have read := @scanInt_decimalInt cfg.tunerCount.val (by omega) (by omega) []
      (fun _ member => nomatch member)
    rwa [List.append_nil] at read
  have id : strtoulAnyBase ("0x".toList ++ hexWord cfg.deviceId) = cfg.deviceId.toNat :=
    (strtoulAnyBase_hexOfId rfl).trans (idOf_idDigits cfg.deviceId)
  have looked : foundInDocument (deviceObject cfg ip) =
      (scanInt (decimalInt cfg.tunerCount)).map fun count =>
        ⟨strtoulAnyBase ("0x".toList ++ hexWord cfg.deviceId), count.1,
          "http://".toList ++ (ip ++ ":80".toList),
          "http://".toList ++ (ip ++ ":80/lineup.json".toList)⟩ := rfl
  rw [looked, count, id]
  rfl

theorem textOf_textBytes {text : CStr}
    (bytes : ∀ character ∈ text, 0 < character.toNat ∧ character.toNat < 256) :
    textOf (textBytes text ++ [0]) = text := by
  induction text with
  | nil => rfl
  | cons character text ih =>
      rw [List.forall_mem_cons] at bytes
      have small : (UInt8.ofNat character.toNat).toNat = character.toNat := by
        rw [UInt8.toNat_ofNat']
        exact Nat.mod_eq_of_lt bytes.1.2
      have notZero : UInt8.ofNat character.toNat ≠ 0 := by
        intro zero
        rw [← UInt8.toNat_inj, small] at zero
        exact absurd zero (Nat.ne_of_gt bytes.1.1)
      have more := ih bytes.2
      rw [textOf] at more ⊢
      rw [textBytes, List.map_cons, List.cons_append, List.takeWhile_cons_of_pos (by
        rw [decide_eq_true_eq]
        exact notZero), List.map_cons, small, Char.ofNat_toNat]
      exact congrArg (character :: ·) more

theorem foundInAnswer_answerItems (cfg : Settings) (address : LocalAddress)
    (bytes : ∀ character ∈ advertiseIp cfg.toHdhrConfig address,
      0 < character.toNat ∧ character.toNat < 256) :
    foundInAnswer (answerItems cfg.toHdhrConfig address) =
      some (cfg.device (advertiseIp cfg.toHdhrConfig address)) := by
  have count : (ByteFields.number [UInt8.ofInt cfg.tunerCount.val] : Int) = cfg.tunerCount.val := by
    have range := cfg.tunerCount.property
    have most : (hdhrMaxTuners : Int) = 8 := rfl
    obtain ⟨count, is⟩ : ∃ count : Nat, cfg.tunerCount.val = count :=
      Int.eq_ofNat_of_zero_le (by omega)
    have all : ∀ count : Nat, count < 9 →
        ByteFields.number [UInt8.ofInt (count : Int)] = count := by decide
    rw [is, all count (by omega)]
  have id : ByteFields.number (ByteFields.bigEndian 4 cfg.deviceId.toNat) = cfg.deviceId.toNat := by
    rw [ByteFields.number_bigEndian]
    exact Nat.mod_eq_of_lt cfg.deviceId.toNat_lt
  have url (behind : CStr)
      (letters : ∀ character ∈ behind, 0 < character.toNat ∧ character.toNat < 256) :
      textOf (textBytes ("http://".toList ++ advertiseIp cfg.toHdhrConfig address ++ behind) ++ [0]) =
        "http://".toList ++ (advertiseIp cfg.toHdhrConfig address ++ behind) := by
    rw [textOf_textBytes, List.append_assoc]
    simp only [List.forall_mem_append]
    exact ⟨⟨List.forall_iff_forall_mem.mp (by decide), bytes⟩, letters⟩
  have base := url ":80".toList (List.forall_iff_forall_mem.mp (by decide))
  have lineup := url ":80/lineup.json".toList (List.forall_iff_forall_mem.mp (by decide))
  have looked : foundInAnswer (answerItems cfg.toHdhrConfig address) =
      some ⟨ByteFields.number (ByteFields.bigEndian 4 cfg.deviceId.toNat),
        ByteFields.number [UInt8.ofInt cfg.tunerCount.val],
        textOf (textBytes ("http://".toList ++ advertiseIp cfg.toHdhrConfig address ++
          ":80".toList) ++ [0]),
        textOf (textBytes ("http://".toList ++ advertiseIp cfg.toHdhrConfig address ++
          ":80/lineup.json".toList) ++ [0])⟩ := rfl
  rw [looked, count, id, base, lineup]
  rfl

/-- Where the address in an answer comes from. -/
theorem advertiseIp_bytes {cfg : Settings}
    (bytes : ∀ character ∈ cfg.bindIp.val, 0 < character.toNat ∧ character.toNat < 256)
    (address : LocalAddress) : ∀ character ∈ advertiseIp cfg.toHdhrConfig address,
      0 < character.toNat ∧ character.toNat < 256 := by
  have plain {text : CStr} (letters : ∀ character ∈ text, inAddress character = true) :
      ∀ character ∈ text, 0 < character.toNat ∧ character.toNat < 256 := by
    intro character member
    have inside := letters character member
    simp only [inAddress, Bool.and_eq_true, decide_eq_true_eq] at inside
    have low : 45 ≤ character.toNat := inside.1.1
    have high : character.toNat ≤ 122 := inside.1.2
    omega
  unfold advertiseIp
  split
  · cases address with
    | none => exact plain (List.all_eq_true.mp (by decide))
    | some parts => exact plain fun _ => inAddress_localIpForPeer
  · exact bytes

/-- What HTTP uses of the settings. -/
def Settings.toWebConfig (cfg : Settings) : WebConfig where
  tunerCount := cfg.tunerCount.val
  webRoot := cfg.webRoot.val

theorem addressParts_lineupUrl (cfg : Settings) {ip : CStr} (plain : ':' ∉ ip) :
    addressParts (cfg.device ip).lineupUrl =
      some (ip, "80".toList, "/lineup.json".toList) :=
  @addressParts_http ip "80/lineup.json".toList "80".toList "lineup.json".toList plain rfl

/-- The addresses in an answer are the configured one, or those of the document
if the kernel names the same local address for both. -/
theorem advertiseIp_settings (cfg : Settings) (lineup : Lineup) (address : LocalAddress) :
    (cfg.bindIp.val ≠ "0.0.0.0".toList → advertiseIp cfg.toHdhrConfig address = cfg.bindIp.val) ∧
      (cfg.bindIp.val = "0.0.0.0".toList → address = lineup.address → lineup.address.isSome →
        advertiseIp cfg.toHdhrConfig address = lineup.ip) := by
  constructor
  · intro bound
    exact if_neg bound
  · rintro any rfl known
    obtain ⟨parts, is⟩ := Option.isSome_iff_exists.mp known
    unfold advertiseIp Lineup.ip
    rw [if_pos (show cfg.toHdhrConfig.bindIp = _ from any), is]

/-- Whoever looks for the device learns the same from its answer as from its
document, but for the address if one is configured or the kernel names different
ones; and gets the lineup at the address in the document.  The document is what
it should be exactly when the texts of the settings may stand in it. -/
theorem device_found (cfg : Settings) (lineup : Lineup) (address : LocalAddress)
    (bytes : ∀ character ∈ cfg.bindIp.val, 0 < character.toNat ∧ character.toNat < 256) :
    (Json.Denotes (handleDiscoverJson cfg lineup.address) (deviceObject cfg lineup.ip) ↔
        cfg.Verbatim) ∧
      foundInDocument (deviceObject cfg lineup.ip) = some (cfg.device lineup.ip) ∧
      (∀ pkt data, AsksFor cfg.deviceId data →
        ∃ reply, handleDiscoverReq cfg.toHdhrConfig address pkt data = [reply] ∧
          ∀ before, ∃ opened items,
            hdhrPktOpenFrame before reply = some (opened, hdhrTypeDiscoverRpy) ∧
              hdhrPktReadTlvs opened = (items, 0) ∧
              foundInAnswer items =
                some (cfg.device (advertiseIp cfg.toHdhrConfig address))) ∧
      (cfg.bindIp.val ≠ "0.0.0.0".toList →
        advertiseIp cfg.toHdhrConfig address = cfg.bindIp.val) ∧
      (cfg.bindIp.val = "0.0.0.0".toList → address = lineup.address → lineup.address.isSome →
        advertiseIp cfg.toHdhrConfig address = lineup.ip) ∧
      addressParts (cfg.device lineup.ip).lineupUrl =
        some (lineup.ip, "80".toList, "/lineup.json".toList) ∧
      Routed cfg.toWebConfig "/discover.json".toList .discoverJson ∧
      Routed cfg.toWebConfig "/lineup.json".toList .lineupJson ∧
      Answers (handleLineupJson · lineup.ip lineup.db) (jsonText lineup.ip lineup.sorted) := by
  obtain ⟨configured, same⟩ := advertiseIp_settings cfg lineup address
  refine ⟨?_, foundInDocument_deviceObject cfg lineup.ip, ?_, configured, same,
    addressParts_lineupUrl cfg lineup.colon_not_mem_ip, ?_, ?_, lineup.answers_json⟩
  · rw [handleDiscoverJson_eq]
    exact (denotes_discoverText_iff cfg (length_localIpForPeer lineup.address)).trans
      (verbatim_discoverTexts_iff cfg fun _ => inAddress_localIpForPeer)
  · intro pkt data asks
    obtain ⟨-, answered⟩ | ⟨ignored, -⟩ := handleDiscoverReq_eq cfg.toHdhrConfig address pkt data
    · refine ⟨_, answered, fun before => ?_⟩
      have few := length_answerItems cfg.toHdhrConfig address
      have size : hdhrPktBufferSize = 3074 := rfl
      obtain ⟨opened, opens, read⟩ := readTlvs_frameBytes before hdhrTypeDiscoverRpy
        (by omega : 4 + (Tlv.encode (answerItems cfg.toHdhrConfig address)).length + 4 ≤
          hdhrPktBufferSize)
      rw [discoverReply_eq]
      exact ⟨opened, _, opens, read,
        foundInAnswer_answerItems cfg address (advertiseIp_bytes bytes address)⟩
    · exact absurd asks ignored
  · exact (PlainPath.ofLetters (by decide) (by decide)).routed (by decide) (by decide) _
  · exact (PlainPath.ofLetters (by decide) (by decide)).routed (by decide) (by decide) _

/-- A device with four tuners. -/
def fourTuners : Settings :=
  { configDefaults 0 with
    deviceId := 0x10123454
    tunerCount := ⟨4, by decide⟩ }

/-- Its lineup after a scan, on a host with an address. -/
def scannedLineup : Lineup :=
  { quotedLineup with address := some (192, 168, 1, 20) }

/-- A client asks for any tuner. -/
def tunerRequest : List UInt8 :=
  frameBytes hdhrTypeDiscoverReq
    (Tlv.encode [⟨hdhrTagDeviceType, [0, 0, 0, 1]⟩, ⟨hdhrTagDeviceId, [255, 255, 255, 255]⟩])

theorem asksFor_tunerRequest (deviceId : UInt32) : AsksFor deviceId tunerRequest := by
  have type : lastWord hdhrTagDeviceType [⟨hdhrTagDeviceType, [0, 0, 0, 1]⟩,
      ⟨hdhrTagDeviceId, [255, 255, 255, 255]⟩] = some 1 := by decide
  have id : lastWord hdhrTagDeviceId [⟨hdhrTagDeviceType, [0, 0, 0, 1]⟩,
      ⟨hdhrTagDeviceId, [255, 255, 255, 255]⟩] = some 0xFFFFFFFF := by decide
  refine ⟨_, _, rfl, by decide, Tlv.decode_eq_iff.mp (Tlv.decode_encode (by decide)), ?_, ?_⟩
  · rw [type]
    rintro word ⟨⟩
    exact Or.inr rfl
  · rw [id]
    rintro word ⟨⟩
    exact Or.inl rfl

theorem device_found_request :
    ∃ reply, handleDiscoverReq fourTuners.toHdhrConfig (some (192, 168, 1, 20)) hdhrPktStartFrame
        tunerRequest = [reply] ∧
      ∀ before, ∃ opened items,
        hdhrPktOpenFrame before reply = some (opened, hdhrTypeDiscoverRpy) ∧
          hdhrPktReadTlvs opened = (items, 0) ∧
          foundInAnswer items = some (fourTuners.device scannedLineup.ip) ∧
          foundInDocument (deviceObject fourTuners scannedLineup.ip) =
            some (fourTuners.device scannedLineup.ip) := by
  obtain ⟨-, document, answers, -, same, -⟩ := device_found fourTuners scannedLineup
    (some (192, 168, 1, 20)) (List.forall_iff_forall_mem.mp (by decide))
  obtain ⟨reply, answered, reads⟩ := answers hdhrPktStartFrame tunerRequest (asksFor_tunerRequest _)
  refine ⟨reply, answered, fun before => ?_⟩
  obtain ⟨opened, items, opens, read, found⟩ := reads before
  rw [same rfl rfl rfl] at found
  exact ⟨opened, items, opens, read, found, document⟩

end HdhrEmu
