import HdhrEmu.Lineup
import HdhrEmu.PktFrame
import HdhrEmu.Tuner

/-!
# Discovery

A client asks by broadcast who is there, possibly for a type of device or for
one device, and the device that is meant answers with its addresses.  Whatever
else arrives is dropped.
-/

namespace HdhrEmu

open CString

def hdhrTypeDiscoverReq : UInt16 := 0x0002
def hdhrTypeDiscoverRpy : UInt16 := 0x0003

def hdhrTagDeviceType : UInt8 := 0x01
def hdhrTagDeviceId : UInt8 := 0x02
def hdhrTagTunerCount : UInt8 := 0x10
def hdhrTagLineupUrl : UInt8 := 0x27
def hdhrTagBaseUrl : UInt8 := 0x2A

def hdhrDeviceTypeWildcard : UInt32 := 0xFFFFFFFF
def hdhrDeviceTypeTuner : UInt32 := 0x00000001
def hdhrDeviceIdWildcard : UInt32 := 0xFFFFFFFF

/-- What discovery reads of `struct hdhr_config`; `bind_ip` has 16 bytes. -/
structure HdhrConfig where
  deviceId : UInt32
  tunerCount : Int
  bindIp : CStr
  bindIp_length : bindIp.length < 16

def textBytes (text : CStr) : List UInt8 :=
  text.map fun character => UInt8.ofNat character.toNat

/-- The address in the answer; `address` is what the kernel would use for the peer. -/
def advertiseIp (cfg : HdhrConfig) (address : LocalAddress) : CStr :=
  if cfg.bindIp = "0.0.0.0".toList then
    match address with
    | some _ => localIpForPeer address
    | none => "127.0.0.1".toList
  else cfg.bindIp

/-- `base_url`, of 64 bytes. -/
def baseUrl (ip : CStr) : CStr :=
  truncate 64 ("http://".toList ++ ip ++ ":80".toList)

/-- `lineup_url`, of 80 bytes. -/
def lineupUrl (ip : CStr) : CStr :=
  truncate 80 ("http://".toList ++ ip ++ ":80/lineup.json".toList)

/-- The datagram of an answer. -/
def discoverReply (cfg : HdhrConfig) (address : LocalAddress) : List UInt8 :=
  let ip := advertiseIp cfg address
  let out := hdhrPktStartFrame
  let out := hdhrPktWriteTlvU32 out hdhrTagDeviceType hdhrDeviceTypeTuner
  let out := hdhrPktWriteTlvU32 out hdhrTagDeviceId cfg.deviceId
  let out := hdhrPktWriteTlv out ⟨hdhrTagTunerCount, [UInt8.ofInt cfg.tunerCount]⟩
  let out := hdhrPktWriteTlvStr out hdhrTagBaseUrl (textBytes (baseUrl ip))
  let out := hdhrPktWriteTlvStr out hdhrTagLineupUrl (textBytes (lineupUrl ip))
  sealedFrame out hdhrTypeDiscoverRpy

/-- `req_device_type` and `req_device_id`. -/
structure DiscoverReq where
  deviceType : UInt32 := hdhrDeviceTypeWildcard
  deviceId : UInt32 := hdhrDeviceIdWildcard
  deriving DecidableEq, Repr

/-- Four bytes, the high one first. -/
def bigEndian32 (b0 b1 b2 b3 : UInt8) : UInt32 :=
  (b0.toUInt32 <<< 24) ||| (b1.toUInt32 <<< 16) ||| (b2.toUInt32 <<< 8) ||| b3.toUInt32

/-- The first four bytes of a value. -/
def wordOf (value : List UInt8) : UInt32 :=
  bigEndian32 (value.getD 0 0) (value.getD 1 0) (value.getD 2 0) (value.getD 3 0)

/-- The body of the loop on the items of a request. -/
def DiscoverReq.read (req : DiscoverReq) (item : Tlv.Item) : DiscoverReq :=
  if item.tag = hdhrTagDeviceType ∧ item.value.length = 4 then
    { req with deviceType := wordOf item.value }
  else if item.tag = hdhrTagDeviceId ∧ item.value.length = 4 then
    { req with deviceId := wordOf item.value }
  else req

def DiscoverReq.typeMatches (req : DiscoverReq) : Prop :=
  req.deviceType = hdhrDeviceTypeWildcard ∨ req.deviceType = hdhrDeviceTypeTuner

def DiscoverReq.idMatches (req : DiscoverReq) (cfg : HdhrConfig) : Prop :=
  req.deviceId = hdhrDeviceIdWildcard ∨ req.deviceId = cfg.deviceId

instance (req : DiscoverReq) : Decidable req.typeMatches :=
  inferInstanceAs (Decidable (_ ∨ _))

instance (req : DiscoverReq) (cfg : HdhrConfig) : Decidable (req.idMatches cfg) :=
  inferInstanceAs (Decidable (_ ∨ _))

/-- The datagrams that `handle_discover_req` sends; `pkt` is whatever the packet
on the stack held before. -/
def handleDiscoverReq (cfg : HdhrConfig) (address : LocalAddress) (pkt : HdhrPkt)
    (data : List UInt8) : List (List UInt8) :=
  match hdhrPktOpenFrame pkt data with
  | none => []
  | some (opened, type) =>
      if type ≠ hdhrTypeDiscoverReq then []
      else
        let (items, r) := hdhrPktReadTlvs opened
        let req := items.foldl DiscoverReq.read {}
        if r < 0 then []
        else if ¬ req.typeMatches ∨ ¬ req.idMatches cfg then []
        else [discoverReply cfg address]

/-- The number in the last item with a tag and four bytes. -/
def lastWord (tag : UInt8) (items : List Tlv.Item) : Option Nat :=
  (items.filter fun item => item.tag = tag ∧ item.value.length = 4).getLast?.map fun item =>
    ByteFields.number item.value

/-- The datagram is a request that means this device. -/
def AsksFor (deviceId : UInt32) (data : List UInt8) : Prop :=
  ∃ payload items, data = frameBytes hdhrTypeDiscoverReq payload ∧
    data.length ≤ hdhrPktBufferSize ∧ Tlv.Sequence items payload ∧
    (∀ word ∈ lastWord hdhrTagDeviceType items,
      word = hdhrDeviceTypeWildcard.toNat ∨ word = hdhrDeviceTypeTuner.toNat) ∧
    ∀ word ∈ lastWord hdhrTagDeviceId items,
      word = hdhrDeviceIdWildcard.toNat ∨ word = deviceId.toNat

/-- The items of an answer. -/
def answerItems (cfg : HdhrConfig) (address : LocalAddress) : List Tlv.Item :=
  [⟨hdhrTagDeviceType, ByteFields.bigEndian 4 hdhrDeviceTypeTuner.toNat⟩,
    ⟨hdhrTagDeviceId, ByteFields.bigEndian 4 cfg.deviceId.toNat⟩,
    ⟨hdhrTagTunerCount, [UInt8.ofInt cfg.tunerCount]⟩,
    ⟨hdhrTagBaseUrl,
      textBytes ("http://".toList ++ advertiseIp cfg address ++ ":80".toList) ++ [0]⟩,
    ⟨hdhrTagLineupUrl,
      textBytes ("http://".toList ++ advertiseIp cfg address ++ ":80/lineup.json".toList) ++ [0]⟩]

theorem bigEndian32_eq (b0 b1 b2 b3 : UInt8) :
    bigEndian32 b0 b1 b2 b3 = littleEndian32 b3 b2 b1 b0 := by
  rw [bigEndian32, littleEndian32, UInt32.or_comm _ b3.toUInt32, UInt32.or_comm _ (b2.toUInt32 <<< 8),
    UInt32.or_comm (b0.toUInt32 <<< 24), ← UInt32.or_assoc, ← UInt32.or_assoc]

theorem wordOf_toNat {value : List UInt8} (four : value.length = 4) :
    (wordOf value).toNat = ByteFields.number value := by
  match value, four with
  | [b0, b1, b2, b3], _ =>
      have word : wordOf [b0, b1, b2, b3] = littleEndian32 b3 b2 b1 b0 := bigEndian32_eq b0 b1 b2 b3
      have number : ByteFields.number [b0, b1, b2, b3] =
          256 * (256 * (256 * (256 * 0 + b0.toNat) + b1.toNat) + b2.toNat) + b3.toNat := rfl
      rw [word, littleEndian32_toNat, number]
      omega

theorem lastWord_cons (tag : UInt8) (item : Tlv.Item) (items : List Tlv.Item) :
    lastWord tag (item :: items) =
      if item.tag = tag ∧ item.value.length = 4 then
        some ((lastWord tag items).getD (ByteFields.number item.value))
      else lastWord tag items := by
  unfold lastWord
  by_cases counts : item.tag = tag ∧ item.value.length = 4
  · rw [if_pos counts, List.filter_cons_of_pos (by simpa using counts), List.getLast?_cons]
    cases (items.filter fun item => item.tag = tag ∧ item.value.length = 4).getLast? <;> rfl
  · rw [if_neg counts, List.filter_cons_of_neg (by simpa using counts)]

/-- The loop is left with the last word of each tag. -/
theorem foldl_read (items : List Tlv.Item) (req : DiscoverReq) :
    (items.foldl DiscoverReq.read req).deviceType.toNat =
        (lastWord hdhrTagDeviceType items).getD req.deviceType.toNat ∧
      (items.foldl DiscoverReq.read req).deviceId.toNat =
        (lastWord hdhrTagDeviceId items).getD req.deviceId.toNat := by
  induction items generalizing req with
  | nil => exact ⟨rfl, rfl⟩
  | cons item items ih =>
      obtain ⟨typed, named⟩ := ih (req.read item)
      have apart : hdhrTagDeviceType ≠ hdhrTagDeviceId := by decide
      rw [List.foldl_cons, typed, named, lastWord_cons, lastWord_cons, DiscoverReq.read]
      by_cases isType : item.tag = hdhrTagDeviceType ∧ item.value.length = 4
      · have notId : ¬ (item.tag = hdhrTagDeviceId ∧ item.value.length = 4) := fun isId =>
          apart (isType.1.symm.trans isId.1)
        rw [if_pos isType, if_pos isType, if_neg notId, wordOf_toNat isType.2]
        exact ⟨rfl, rfl⟩
      · by_cases isId : item.tag = hdhrTagDeviceId ∧ item.value.length = 4
        · rw [if_neg isType, if_neg isType, if_pos isId, if_pos isId, wordOf_toNat isId.2]
          exact ⟨rfl, rfl⟩
        · rw [if_neg isType, if_neg isType, if_neg isId, if_neg isId]
          exact ⟨rfl, rfl⟩

/-- A word is the wildcard or the one that is looked for, or there is none. -/
theorem matches_iff {word : Option Nat} {value wildcard wanted : UInt32}
    (is : value.toNat = word.getD wildcard.toNat) :
    (value = wildcard ∨ value = wanted) ↔
      ∀ n ∈ word, n = wildcard.toNat ∨ n = wanted.toNat := by
  rw [← UInt32.toNat_inj, ← UInt32.toNat_inj, is]
  cases word with
  | none => simp
  | some n => simp

/-- What the loop finds is what the last words say. -/
theorem matches_items (cfg : HdhrConfig) (items : List Tlv.Item) :
    ((items.foldl DiscoverReq.read {}).typeMatches ∧
        (items.foldl DiscoverReq.read {}).idMatches cfg) ↔
      (∀ word ∈ lastWord hdhrTagDeviceType items,
        word = hdhrDeviceTypeWildcard.toNat ∨ word = hdhrDeviceTypeTuner.toNat) ∧
      ∀ word ∈ lastWord hdhrTagDeviceId items,
        word = hdhrDeviceIdWildcard.toNat ∨ word = cfg.deviceId.toNat := by
  obtain ⟨typed, named⟩ := foldl_read items {}
  exact and_congr (matches_iff typed) (matches_iff named)

/-- A request that is opened is one that means this device when its items say so. -/
theorem asksFor_iff {pkt opened : HdhrPkt} {data : List UInt8} {frameType : UInt16}
    (is : hdhrPktOpenFrame pkt data = some (opened, frameType)) (deviceId : UInt32) :
    AsksFor deviceId data ↔ frameType = hdhrTypeDiscoverReq ∧
      ∃ items, hdhrPktReadTlvs opened = (items, 0) ∧
        (∀ word ∈ lastWord hdhrTagDeviceType items,
          word = hdhrDeviceTypeWildcard.toNat ∨ word = hdhrDeviceTypeTuner.toNat) ∧
        ∀ word ∈ lastWord hdhrTagDeviceId items,
          word = hdhrDeviceIdWildcard.toNat ∨ word = deviceId.toNat := by
  obtain ⟨payload, whole, small⟩ := (opens_iff pkt data frameType).mp ⟨opened, is⟩
  have fits : 4 + payload.length + 4 ≤ hdhrPktBufferSize := by
    rw [whole, length_frameBytes] at small
    exact small
  have remaining : opened.remaining = payload := by
    obtain ⟨again, opens, remaining⟩ := openFrame_frameBytes pkt frameType fits
    rw [← whole, is] at opens
    cases opens
    exact remaining
  have read (items : List Tlv.Item) :
      hdhrPktReadTlvs opened = (items, 0) ↔ Tlv.Sequence items payload := by
    rw [readTlvs_eq, remaining, ← Tlv.decode_eq_iff]
    obtain ⟨found, done⟩ := Tlv.decode payload
    cases done <;> simp
  constructor
  · rintro ⟨asked, items, isFrame, -, spelled, wanted⟩
    have fitsToo : 4 + asked.length + 4 ≤ hdhrPktBufferSize := by
      rw [isFrame, length_frameBytes] at small
      exact small
    obtain ⟨again, opens, rest⟩ := openFrame_frameBytes pkt hdhrTypeDiscoverReq fitsToo
    rw [← isFrame, is] at opens
    cases opens
    exact ⟨rfl, items, (read items).mpr (remaining.symm.trans rest ▸ spelled), wanted⟩
  · rintro ⟨rfl, items, walked, wanted⟩
    exact ⟨payload, items, whole, small, (read items).mp walked, wanted⟩

/-- There is an answer to a request that means this device, and to nothing else. -/
theorem handleDiscoverReq_eq (cfg : HdhrConfig) (address : LocalAddress) (pkt : HdhrPkt)
    (data : List UInt8) :
    (AsksFor cfg.deviceId data ∧
        handleDiscoverReq cfg address pkt data = [discoverReply cfg address]) ∨
      (¬ AsksFor cfg.deviceId data ∧ handleDiscoverReq cfg address pkt data = []) := by
  unfold handleDiscoverReq
  cases is : hdhrPktOpenFrame pkt data with
  | none =>
      right
      refine ⟨?_, rfl⟩
      rintro ⟨payload, -, whole, small, -⟩
      obtain ⟨opened, opens⟩ := (opens_iff pkt data hdhrTypeDiscoverReq).mpr ⟨payload, whole, small⟩
      rw [is] at opens
      cases opens
  | some found =>
      obtain ⟨opened, frameType⟩ := found
      rw [asksFor_iff is]
      dsimp only
      by_cases typed : frameType = hdhrTypeDiscoverReq
      · rw [if_neg (not_not_intro typed)]
        by_cases walked : (hdhrPktReadTlvs opened).2 < 0
        · rw [if_pos walked]
          right
          refine ⟨?_, rfl⟩
          rintro ⟨-, items, read, -⟩
          rw [read] at walked
          exact lt_irrefl _ walked
        · have read : hdhrPktReadTlvs opened = ((hdhrPktReadTlvs opened).1, 0) := by
            rw [readTlvs_eq] at walked ⊢
            split at walked
            · rename_i done
              rw [if_pos done]
            · exact absurd (by decide : (-1 : Int) < 0) walked
          have means := matches_items cfg (hdhrPktReadTlvs opened).1
          rw [if_neg walked]
          by_cases meant : ((hdhrPktReadTlvs opened).1.foldl DiscoverReq.read {}).typeMatches ∧
              ((hdhrPktReadTlvs opened).1.foldl DiscoverReq.read {}).idMatches cfg
          · rw [if_neg (not_or.mpr ⟨not_not_intro meant.1, not_not_intro meant.2⟩)]
            exact Or.inl ⟨⟨typed, _, read, means.mp meant⟩, rfl⟩
          · rw [if_pos (not_and_or.mp meant)]
            right
            refine ⟨?_, rfl⟩
            rintro ⟨-, items, readToo, wanted⟩
            rw [read] at readToo
            cases readToo
            exact meant (means.mpr wanted)
      · rw [if_pos typed]
        exact Or.inr ⟨fun asks => typed asks.1, rfl⟩

theorem bigEndian_four (v : UInt32) :
    ByteFields.bigEndian 4 v.toNat =
      [(v >>> 24).toUInt8, (v >>> 16).toUInt8, (v >>> 8).toUInt8, v.toUInt8] := by
  have byte (shift : UInt32) (power : Nat) (is : power = 2 ^ (shift.toNat % 32)) :
      UInt8.ofNat (v.toNat / power) = (v >>> shift).toUInt8 := by
    apply UInt8.toNat_inj.mp
    rw [UInt8.toNat_ofNat', UInt32.toNat_toUInt8, UInt32.toNat_shiftRight,
      Nat.shiftRight_eq_div_pow, is]
  have low : UInt8.ofNat (v.toNat / 256 ^ 0) = v.toUInt8 := by
    apply UInt8.toNat_inj.mp
    rw [UInt8.toNat_ofNat', UInt32.toNat_toUInt8, Nat.pow_zero, Nat.div_one]
  rw [ByteFields.bigEndian, ByteFields.bigEndian, ByteFields.bigEndian, ByteFields.bigEndian,
    ByteFields.bigEndian, byte 24 (256 ^ 3) rfl, byte 16 (256 ^ 2) rfl,
    byte 8 (256 ^ 1) rfl, low]

theorem length_advertiseIp (cfg : HdhrConfig) (address : LocalAddress) :
    (advertiseIp cfg address).length ≤ 15 := by
  unfold advertiseIp
  split
  · cases address with
    | none => decide
    | some peer => exact length_localIpForPeer (some peer)
  · exact Nat.le_of_lt_succ cfg.bindIp_length

/-- Both addresses fit their buffers. -/
theorem baseUrl_eq {ip : CStr} (short : ip.length ≤ 15) :
    baseUrl ip = "http://".toList ++ ip ++ ":80".toList := by
  apply List.take_of_length_le
  have front : "http://".toList.length = 7 := rfl
  have back : ":80".toList.length = 3 := rfl
  rw [List.length_append, List.length_append, front, back]
  omega

theorem lineupUrl_eq {ip : CStr} (short : ip.length ≤ 15) :
    lineupUrl ip = "http://".toList ++ ip ++ ":80/lineup.json".toList := by
  apply List.take_of_length_le
  have front : "http://".toList.length = 7 := rfl
  have back : ":80/lineup.json".toList.length = 15 := rfl
  rw [List.length_append, List.length_append, front, back]
  omega

theorem length_textBytes (text : CStr) : (textBytes text).length = text.length :=
  List.length_map _

/-- The items of an answer take few bytes, whatever is configured. -/
theorem length_answerItems (cfg : HdhrConfig) (address : LocalAddress) :
    (Tlv.encode (answerItems cfg address)).length ≤ 100 := by
  have short := length_advertiseIp cfg address
  have front : "http://".toList.length = 7 := rfl
  have back : ":80".toList.length = 3 := rfl
  have lineup : ":80/lineup.json".toList.length = 15 := rfl
  simp only [answerItems, Tlv.encode_cons, Tlv.encode_nil, List.length_append, List.length_nil,
    Tlv.length_encode_item, ByteFields.length_bigEndian, length_textBytes, List.length_singleton,
    front, back, lineup]
  split_ifs <;> omega

/-- An answer is the frame of its items. -/
theorem discoverReply_eq (cfg : HdhrConfig) (address : LocalAddress) :
    discoverReply cfg address =
      frameBytes hdhrTypeDiscoverRpy (Tlv.encode (answerItems cfg address)) := by
  have short := length_advertiseIp cfg address
  have items : discoverReply cfg address =
      sealedFrame (hdhrPktWriteTlvs hdhrPktStartFrame (answerItems cfg address))
        hdhrTypeDiscoverRpy := by
    unfold discoverReply hdhrPktWriteTlvU32 hdhrPktWriteTlvStr answerItems
    dsimp only
    rw [baseUrl_eq short, lineupUrl_eq short, bigEndian_four, bigEndian_four]
    rfl
  have few := length_answerItems cfg address
  have room : 4 + (Tlv.encode (answerItems cfg address)).length + 4 ≤ hdhrPktBufferSize := by
    have : hdhrPktBufferSize = 3074 := rfl
    omega
  rw [items, sealedFrame_writeTlvs room]

/-- A datagram is answered once, or not at all when it is not a request that
means this device; and a client reads the answer back. -/
theorem discovery_answered (cfg : HdhrConfig) (address : LocalAddress) (pkt : HdhrPkt)
    (data : List UInt8) :
    (handleDiscoverReq cfg address pkt data).length ≤ 1 ∧
      ((handleDiscoverReq cfg address pkt data).length = 1 ↔ AsksFor cfg.deviceId data) ∧
      ∀ reply ∈ handleDiscoverReq cfg address pkt data,
        reply.length ≤ hdhrMaxPacketSize ∧
          ∀ before, ∃ opened, hdhrPktOpenFrame before reply = some (opened, hdhrTypeDiscoverRpy) ∧
            hdhrPktReadTlvs opened = (answerItems cfg address, 0) := by
  have few := length_answerItems cfg address
  obtain ⟨asks, answered⟩ | ⟨not, dropped⟩ := handleDiscoverReq_eq cfg address pkt data
  · rw [answered]
    refine ⟨le_rfl, iff_of_true rfl asks, ?_⟩
    intro reply member
    rw [List.mem_singleton.mp member, discoverReply_eq]
    constructor
    · have : hdhrMaxPacketSize = 1460 := rfl
      rw [length_frameBytes]
      omega
    · intro before
      have room : 4 + (Tlv.encode (answerItems cfg address)).length + 4 ≤ hdhrPktBufferSize := by
        have : hdhrPktBufferSize = 3074 := rfl
        omega
      exact readTlvs_frameBytes before hdhrTypeDiscoverRpy room
  · rw [dropped]
    refine ⟨Nat.zero_le 1, iff_of_false (by decide) not, ?_⟩
    exact fun reply member => absurd member List.not_mem_nil

end HdhrEmu
