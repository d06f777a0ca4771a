import HdhrEmu.HdhrPkt
import HdhrEmu.Lib.ByteFields

/-!
# Frames that are written and read back

While everything fits, the buffer holds the header, the items that were
written and nothing in between, and a reader gets the items back in order.
-/

namespace HdhrEmu

/-- The packet is being written, and `payload` is what was written so far. -/
structure Writing (pkt : HdhrPkt) (payload : List UInt8) : Prop where
  pos : pkt.pos = 4 + payload.length
  endPos : pkt.endPos = 4 + payload.length
  stored : (pkt.buffer.drop 4).take payload.length = payload

theorem writing_startFrame : Writing hdhrPktStartFrame [] where
  pos := rfl
  endPos := rfl
  stored := rfl

theorem Writing.mem {pkt : HdhrPkt} {payload : List UInt8} (writing : Writing pkt payload)
    (mem : List UInt8) (fits : 4 + (payload.length + mem.length) ≤ hdhrPktBufferSize) :
    Writing (hdhrPktWriteMem pkt mem) (payload ++ mem) := by
  have inside : pkt.pos + mem.length ≤ hdhrPktBufferSize := by
    rw [writing.pos]
    omega
  have room : pkt.pos + mem.length ≤ pkt.buffer.length := by
    rw [pkt.buffer_length]
    exact inside
  rw [hdhrPktWriteMem, dif_pos inside]
  refine ⟨?_, ?_, ?_⟩
  · simp only [writing.pos, List.length_append]
    omega
  · simp only [writing.pos, List.length_append]
    omega
  · have header : (pkt.buffer.take pkt.pos).drop 4 = payload := by
      rw [writing.pos, List.drop_take, Nat.add_sub_cancel_left, writing.stored]
    have long : 4 ≤ (pkt.buffer.take pkt.pos).length := by
      rw [List.length_take, pkt.buffer_length, writing.pos]
      omega
    simp only [storeBytes_eq room]
    rw [List.append_assoc, List.drop_append_of_le_length long, header, ← List.append_assoc,
      List.take_left]

theorem Writing.varLength {pkt : HdhrPkt} {payload : List UInt8} (writing : Writing pkt payload)
    (len : Nat) (fits : 4 + (payload.length + (Tlv.lengthBytes len).length) ≤ hdhrPktBufferSize) :
    Writing (hdhrPktWriteVarLength pkt len) (payload ++ Tlv.lengthBytes len) := by
  rw [Tlv.length_lengthBytes] at fits
  unfold hdhrPktWriteVarLength Tlv.lengthBytes
  by_cases short : len ≤ 127
  · rw [if_pos short] at fits
    rw [if_pos short, if_pos short]
    exact writing.mem _ fits
  · rw [if_neg short] at fits
    rw [if_neg short, if_neg short]
    have low : Writing (hdhrPktWriteU8 pkt (UInt8.ofNat ((len &&& 0x7F) ||| 0x80)))
        (payload ++ [UInt8.ofNat ((len &&& 0x7F) ||| 0x80)]) :=
      writing.mem _ (by rw [List.length_singleton]; omega)
    have high := low.mem [UInt8.ofNat (len >>> 7)]
      (by rw [List.length_append, List.length_singleton, List.length_singleton]; omega)
    rw [List.append_assoc] at high
    exact high

/-- An item that fits is written as a whole. -/
theorem Writing.tlv {pkt : HdhrPkt} {payload : List UInt8} (writing : Writing pkt payload)
    (item : Tlv.Item) (fits : 4 + (payload.length + item.encode.length) ≤ hdhrPktBufferSize) :
    Writing (hdhrPktWriteTlv pkt item) (payload ++ item.encode) := by
  simp only [Tlv.Item.encode, List.length_cons, List.length_append] at fits
  have tag : Writing (hdhrPktWriteU8 pkt item.tag) (payload ++ [item.tag]) :=
    writing.mem _ (by rw [List.length_singleton]; omega)
  have length := tag.varLength item.value.length
    (by rw [List.length_append, List.length_singleton]; omega)
  have value := length.mem item.value
    (by rw [List.length_append, List.length_append, List.length_singleton]; omega)
  rw [List.append_assoc, List.append_assoc] at value
  exact value

/-- A sequence of `hdhr_pkt_write_tlv` calls. -/
def hdhrPktWriteTlvs (pkt : HdhrPkt) (items : List Tlv.Item) : HdhrPkt :=
  items.foldl hdhrPktWriteTlv pkt

theorem Writing.tlvs {pkt : HdhrPkt} {payload : List UInt8} (writing : Writing pkt payload)
    (items : List Tlv.Item)
    (fits : 4 + (payload.length + (Tlv.encode items).length) ≤ hdhrPktBufferSize) :
    Writing (hdhrPktWriteTlvs pkt items) (payload ++ Tlv.encode items) := by
  induction items generalizing pkt payload with
  | nil => simpa [hdhrPktWriteTlvs] using writing
  | cons item items ih =>
      rw [Tlv.encode_cons, List.length_append] at fits
      have first := writing.tlv item (by omega)
      have rest := ih first (by rw [List.length_append]; omega)
      rw [List.append_assoc] at rest
      rw [Tlv.encode_cons]
      exact rest

theorem length_headerBytes (frameType : UInt16) (length : Nat) :
    (headerBytes frameType length).length = 4 :=
  rfl

theorem length_crcBytes (crc : UInt32) : (crcBytes crc).length = 4 :=
  rfl

/-- The bytes of a frame on the wire. -/
def frameBytes (frameType : UInt16) (payload : List UInt8) : List UInt8 :=
  headerBytes frameType payload.length ++ payload ++
    crcBytes (hdhrCrc32 (headerBytes frameType payload.length ++ payload))

/-- Sealing a packet with room for the checksum. -/
theorem Writing.sealed {pkt : HdhrPkt} {payload : List UInt8} (writing : Writing pkt payload)
    (fits : 4 + payload.length + 4 ≤ hdhrPktBufferSize) (frameType : UInt16) :
    sealedFrame pkt frameType = frameBytes frameType payload := by
  have length : pkt.payloadLength = payload.length := by
    rw [HdhrPkt.payloadLength, writing.endPos, Nat.add_sub_cancel_left]
  have headed : storeBytes pkt.buffer 0 (headerBytes frameType payload.length) =
      headerBytes frameType payload.length ++ pkt.buffer.drop 4 := by
    rw [storeBytes_eq (by rw [length_headerBytes, pkt.buffer_length]; decide)]
    rfl
  have body : (headerBytes frameType payload.length ++ pkt.buffer.drop 4).take
      (4 + payload.length) = headerBytes frameType payload.length ++ payload := by
    rw [← length_headerBytes frameType payload.length, List.take_length_add_append,
      length_headerBytes, writing.stored]
  have room : (headerBytes frameType payload.length ++ pkt.buffer.drop 4).length =
      hdhrPktBufferSize := by
    rw [List.length_append, List.length_drop, pkt.buffer_length, length_headerBytes]
    decide
  simp only [sealedFrame, hdhrPktSealFrame, length, headed, body]
  rw [storeBytes_eq (by rw [length_crcBytes, room]; exact fits), body, frameBytes]
  apply List.take_left'
  simp only [List.length_append, length_headerBytes, length_crcBytes]

/-- The frame of a list of items that fits. -/
theorem sealedFrame_writeTlvs {items : List Tlv.Item}
    (fits : 4 + (Tlv.encode items).length + 4 ≤ hdhrPktBufferSize) (frameType : UInt16) :
    sealedFrame (hdhrPktWriteTlvs hdhrPktStartFrame items) frameType =
      frameBytes frameType (Tlv.encode items) := by
  have written := writing_startFrame.tlvs items (by rw [List.length_nil]; omega)
  rw [List.nil_append] at written
  exact written.sealed fits frameType

/-- The part of the payload that has not been read. -/
def HdhrPkt.remaining (pkt : HdhrPkt) : List UInt8 :=
  (pkt.buffer.drop pkt.pos).take (pkt.endPos - pkt.pos)

theorem HdhrPkt.length_remaining (pkt : HdhrPkt) :
    pkt.remaining.length = pkt.endPos - pkt.pos := by
  have := pkt.endPos_le
  rw [remaining, List.length_take, List.length_drop, pkt.buffer_length]
  omega

theorem HdhrPkt.readByte_eq_none {pkt : HdhrPkt} (read : pkt.readByte = none) :
    pkt.remaining = [] := by
  unfold readByte at read
  split at read
  · cases read
  · rename_i atEnd
    rw [← List.length_eq_zero_iff, length_remaining]
    omega

theorem HdhrPkt.readByte_eq_some {pkt next : HdhrPkt} {byte : UInt8}
    (read : pkt.readByte = some (byte, next)) :
    pkt.remaining = byte :: next.remaining := by
  unfold readByte at read
  split at read
  · rename_i before
    cases read
    have inside : pkt.pos < pkt.buffer.length := by
      rw [pkt.buffer_length]
      exact Nat.lt_of_lt_of_le before pkt.endPos_le
    obtain ⟨left, counts⟩ : ∃ left, pkt.endPos - pkt.pos = left + 1 :=
      ⟨pkt.endPos - pkt.pos - 1, by omega⟩
    have rest : pkt.endPos - (pkt.pos + 1) = left := by omega
    rw [remaining, remaining, List.drop_eq_getElem_cons inside, counts, List.take_succ_cons, rest,
      List.getD_eq_getElem _ _ inside]
  · cases read

/-- What is found under the cursor, as a fact about the bytes that are left. -/
def ReadTlv.next : ReadTlv → Tlv.Next
  | .finished => .finished
  | .malformed _ => .malformed
  | .tlv item pkt => .item item pkt.remaining

theorem HdhrPkt.next_readValue (pkt : HdhrPkt) (tag : UInt8) (length : Nat)
    (inside : pkt.pos ≤ pkt.endPos) :
    (pkt.readValue tag length).next = Tlv.takeValue tag length pkt.remaining := by
  have size := pkt.length_remaining
  unfold readValue Tlv.takeValue
  by_cases fits : pkt.pos + length ≤ pkt.endPos
  · rw [dif_pos fits, if_pos (by omega)]
    have rest : pkt.remaining.drop length =
        (pkt.buffer.drop (pkt.pos + length)).take (pkt.endPos - (pkt.pos + length)) := by
      rw [remaining, List.drop_take, List.drop_drop]
      congr 1
      omega
    have value : pkt.remaining.take length = (pkt.buffer.drop pkt.pos).take length := by
      rw [remaining, List.take_take, Nat.min_eq_left (by omega)]
    rw [rest, value]
    rfl
  · rw [dif_neg fits, if_neg (by omega)]
    rfl

theorem HdhrPkt.pos_le_of_readByte {pkt next : HdhrPkt} {byte : UInt8}
    (read : pkt.readByte = some (byte, next)) : next.pos ≤ next.endPos := by
  unfold readByte at read
  split at read
  · rename_i before
    cases read
    exact before
  · cases read

/-- `hdhr_pkt_read_tlv` reads the next item of the payload. -/
theorem next_readTlv (pkt : HdhrPkt) :
    (hdhrPktReadTlv pkt).next = Tlv.next pkt.remaining := by
  unfold hdhrPktReadTlv
  cases first : pkt.readByte with
  | none =>
      rw [HdhrPkt.readByte_eq_none first]
      rfl
  | some read =>
      obtain ⟨tag, pkt⟩ := read
      rw [HdhrPkt.readByte_eq_some first]
      dsimp only
      cases second : pkt.readByte with
      | none =>
          rw [HdhrPkt.readByte_eq_none second]
          rfl
      | some read =>
          obtain ⟨b0, pkt⟩ := read
          rw [HdhrPkt.readByte_eq_some second]
          dsimp only
          by_cases short : b0 &&& 0x80 = 0
          · rw [if_pos short, Tlv.next_short short]
            exact HdhrPkt.next_readValue _ _ _ (HdhrPkt.pos_le_of_readByte second)
          · rw [if_neg short, Tlv.next_long short]
            cases third : pkt.readByte with
            | none =>
                rw [HdhrPkt.readByte_eq_none third]
                rfl
            | some read =>
                obtain ⟨b1, pkt⟩ := read
                rw [HdhrPkt.readByte_eq_some third]
                exact HdhrPkt.next_readValue _ _ _ (HdhrPkt.pos_le_of_readByte third)

theorem length_lt_of_readTlv {pkt next : HdhrPkt} {item : Tlv.Item}
    (read : hdhrPktReadTlv pkt = .tlv item next) :
    next.remaining.length < pkt.remaining.length := by
  have found := next_readTlv pkt
  rw [read] at found
  exact Tlv.next_item found.symm

/-- Repeated `hdhr_pkt_read_tlv` calls: the items, and the last result. -/
def hdhrPktReadTlvs (pkt : HdhrPkt) : List Tlv.Item × Int :=
  match _ : hdhrPktReadTlv pkt with
  | .finished => ([], 0)
  | .malformed _ => ([], -1)
  | .tlv item next => (item :: (hdhrPktReadTlvs next).1, (hdhrPktReadTlvs next).2)
termination_by pkt.remaining.length
decreasing_by exact length_lt_of_readTlv ‹_›

theorem readTlvs_eq (pkt : HdhrPkt) :
    hdhrPktReadTlvs pkt =
      ((Tlv.decode pkt.remaining).1, if (Tlv.decode pkt.remaining).2 then 0 else -1) := by
  fun_induction hdhrPktReadTlvs pkt with
  | case1 pkt read =>
      have found := next_readTlv pkt
      rw [read] at found
      rw [Tlv.decode_of_finished found.symm]
      rfl
  | case2 pkt bad read =>
      have found := next_readTlv pkt
      rw [read] at found
      rw [Tlv.decode_of_malformed found.symm]
      rfl
  | case3 pkt item next read ih =>
      have found := next_readTlv pkt
      rw [read] at found
      rw [Tlv.decode_of_item found.symm, ih]

theorem bigEndian16_toNat (high low : UInt8) :
    (bigEndian16 high low).toNat = high.toNat * 256 + low.toNat :=
  ByteFields.toNat_shiftLeft_or high low

theorem littleEndian32_toNat (b0 b1 b2 b3 : UInt8) :
    (littleEndian32 b0 b1 b2 b3).toNat =
      b0.toNat + b1.toNat * 2 ^ 8 + b2.toNat * 2 ^ 16 + b3.toNat * 2 ^ 24 := by
  have bound0 := b0.toNat_lt
  have bound1 := b1.toNat_lt
  have bound2 := b2.toNat_lt
  have bound3 := b3.toNat_lt
  have s1 : (8 : UInt32).toNat % 32 = 8 := rfl
  have s2 : (16 : UInt32).toNat % 32 = 16 := rfl
  have s3 : (24 : UInt32).toNat % 32 = 24 := rfl
  simp only [littleEndian32, UInt32.toNat_or, UInt32.toNat_shiftLeft, UInt8.toNat_toUInt32, s1, s2, s3]
  rw [Nat.mod_eq_of_lt (by rw [Nat.shiftLeft_eq]; omega),
    Nat.mod_eq_of_lt (by rw [Nat.shiftLeft_eq]; omega),
    Nat.mod_eq_of_lt (by rw [Nat.shiftLeft_eq]; omega)]
  have low : b0.toNat ||| b1.toNat <<< 8 = b0.toNat + b1.toNat * 2 ^ 8 := ByteFields.or_shiftLeft bound0
  have middle : b0.toNat + b1.toNat * 2 ^ 8 ||| b2.toNat <<< 16 =
      b0.toNat + b1.toNat * 2 ^ 8 + b2.toNat * 2 ^ 16 :=
    ByteFields.or_shiftLeft (by omega)
  rw [low, middle, ByteFields.or_shiftLeft (by omega)]

theorem littleEndian32_crcBytes (crc : UInt32) :
    littleEndian32 crc.toUInt8 (crc >>> 8).toUInt8 (crc >>> 16).toUInt8 (crc >>> 24).toUInt8 = crc := by
  have bound := crc.toNat_lt
  apply UInt32.toNat_inj.mp
  rw [littleEndian32_toNat]
  simp only [UInt32.toNat_toUInt8, UInt32.toNat_shiftRight]
  have s1 : (8 : UInt32).toNat % 32 = 8 := rfl
  have s2 : (16 : UInt32).toNat % 32 = 16 := rfl
  have s3 : (24 : UInt32).toNat % 32 = 24 := rfl
  simp only [s1, s2, s3, Nat.shiftRight_eq_div_pow]
  omega

theorem bigEndian16_headerBytes (frameType : UInt16) :
    bigEndian16 (frameType >>> 8).toUInt8 frameType.toUInt8 = frameType := by
  have bound := frameType.toNat_lt
  apply UInt16.toNat_inj.mp
  rw [bigEndian16_toNat]
  simp only [UInt16.toNat_toUInt8, UInt16.toNat_shiftRight]
  have s1 : (8 : UInt16).toNat % 16 = 8 := rfl
  simp only [s1, Nat.shiftRight_eq_div_pow]
  omega

theorem framePayloadLength_frameBytes (frameType : UInt16) {payload : List UInt8}
    (small : payload.length < 2 ^ 16) :
    framePayloadLength (frameBytes frameType payload) = payload.length := by
  have high : (frameBytes frameType payload).getD 2 0 = UInt8.ofNat (payload.length >>> 8) := rfl
  have low : (frameBytes frameType payload).getD 3 0 = UInt8.ofNat payload.length := rfl
  rw [framePayloadLength, high, low, bigEndian16_toNat, UInt8.toNat_ofNat', UInt8.toNat_ofNat',
    Nat.shiftRight_eq_div_pow]
  omega

theorem length_frameBytes (frameType : UInt16) (payload : List UInt8) :
    (frameBytes frameType payload).length = 4 + payload.length + 4 := by
  simp only [frameBytes, List.length_append, length_headerBytes, length_crcBytes]

theorem take_frameBytes (frameType : UInt16) (payload : List UInt8) :
    (frameBytes frameType payload).take (4 + payload.length) =
      headerBytes frameType payload.length ++ payload := by
  apply List.take_left'
  rw [List.length_append, length_headerBytes]

theorem getD_crc_frameBytes (frameType : UInt16) (payload : List UInt8) (i : Nat) :
    (frameBytes frameType payload).getD (4 + payload.length + i) 0 =
      (crcBytes (hdhrCrc32 (headerBytes frameType payload.length ++ payload))).getD i 0 := by
  have front : (headerBytes frameType payload.length ++ payload).length = 4 + payload.length := by
    rw [List.length_append, length_headerBytes]
  rw [frameBytes, List.getD_append_right _ _ _ _ (by omega), front, Nat.add_sub_cancel_left]

/-- A frame of the right size is accepted. -/
theorem frameAccepted_frameBytes (frameType : UInt16) {payload : List UInt8}
    (fits : 4 + payload.length + 4 ≤ hdhrPktBufferSize) :
    FrameAccepted (frameBytes frameType payload) := by
  have small : payload.length < 2 ^ 16 := by
    have : hdhrPktBufferSize < 2 ^ 16 := by decide
    omega
  have declared := framePayloadLength_frameBytes frameType small
  have length := length_frameBytes frameType payload
  refine ⟨by omega, by omega, by omega, ?_⟩
  have crc0 := getD_crc_frameBytes frameType payload 0
  rw [Nat.add_zero] at crc0
  rw [declared, take_frameBytes, crc0, getD_crc_frameBytes, getD_crc_frameBytes,
    getD_crc_frameBytes]
  exact (littleEndian32_crcBytes _).symm

theorem bigEndian16_bytes (high low : UInt8) :
    (bigEndian16 high low >>> 8).toUInt8 = high ∧ (bigEndian16 high low).toUInt8 = low := by
  have value := bigEndian16_toNat high low
  have highBound := high.toNat_lt
  have lowBound := low.toNat_lt
  have amount : (8 : UInt16).toNat % 16 = 8 := rfl
  constructor
  · apply UInt8.toNat_inj.mp
    rw [UInt16.toNat_toUInt8, UInt16.toNat_shiftRight, amount, Nat.shiftRight_eq_div_pow, value]
    omega
  · apply UInt8.toNat_inj.mp
    rw [UInt16.toNat_toUInt8, value]
    omega

/-- The header is written back as it was read. -/
theorem headerBytes_bigEndian16 (b0 b1 b2 b3 : UInt8) :
    headerBytes (bigEndian16 b0 b1) (bigEndian16 b2 b3).toNat = [b0, b1, b2, b3] := by
  have amount : (8 : UInt16).toNat % 16 = 8 := rfl
  have high : UInt8.ofNat ((bigEndian16 b2 b3).toNat >>> 8) = b2 := by
    refine Eq.trans ?_ (bigEndian16_bytes b2 b3).1
    apply UInt8.toNat_inj.mp
    rw [UInt8.toNat_ofNat', UInt16.toNat_toUInt8, UInt16.toNat_shiftRight, amount]
  have low : UInt8.ofNat (bigEndian16 b2 b3).toNat = b3 := by
    refine Eq.trans ?_ (bigEndian16_bytes b2 b3).2
    apply UInt8.toNat_inj.mp
    rw [UInt8.toNat_ofNat', UInt16.toNat_toUInt8]
  rw [headerBytes, (bigEndian16_bytes b0 b1).1, (bigEndian16_bytes b0 b1).2, high, low]

/-- The checksum is written back as it was read. -/
theorem crcBytes_littleEndian32 (b0 b1 b2 b3 : UInt8) :
    crcBytes (littleEndian32 b0 b1 b2 b3) = [b0, b1, b2, b3] := by
  have value := littleEndian32_toNat b0 b1 b2 b3
  have bound0 := b0.toNat_lt
  have bound1 := b1.toNat_lt
  have bound2 := b2.toNat_lt
  have bound3 := b3.toNat_lt
  have byte (shift : UInt32) (b : UInt8)
      (part : (littleEndian32 b0 b1 b2 b3).toNat / 2 ^ (shift.toNat % 32) % 2 ^ 8 = b.toNat) :
      (littleEndian32 b0 b1 b2 b3 >>> shift).toUInt8 = b := by
    apply UInt8.toNat_inj.mp
    rw [UInt32.toNat_toUInt8, UInt32.toNat_shiftRight, Nat.shiftRight_eq_div_pow, part]
  have s0 : (0 : UInt32).toNat % 32 = 0 := rfl
  have s1 : (8 : UInt32).toNat % 32 = 8 := rfl
  have s2 : (16 : UInt32).toNat % 32 = 16 := rfl
  have s3 : (24 : UInt32).toNat % 32 = 24 := rfl
  have first : (littleEndian32 b0 b1 b2 b3).toUInt8 = b0 := by
    apply UInt8.toNat_inj.mp
    rw [UInt32.toNat_toUInt8, value]
    omega
  rw [crcBytes, first, byte 8 b1 (by rw [value, s1]; omega), byte 16 b2 (by rw [value, s2]; omega),
    byte 24 b3 (by rw [value, s3]; omega)]

theorem eq_getD_of_length_four {bytes : List UInt8} (four : bytes.length = 4) :
    bytes = [bytes.getD 0 0, bytes.getD 1 0, bytes.getD 2 0, bytes.getD 3 0] := by
  match bytes, four with
  | [_, _, _, _], _ => rfl

/-- Bytes that are accepted are a frame. -/
theorem eq_frameBytes_of_accepted {data : List UInt8} (accepted : FrameAccepted data) :
    data = frameBytes (bigEndian16 (data.getD 0 0) (data.getD 1 0))
      ((data.drop 4).take (framePayloadLength data)) := by
  have declared := accepted.declared
  have length : ((data.drop 4).take (framePayloadLength data)).length = framePayloadLength data := by
    rw [List.length_take, List.length_drop]
    omega
  have header : headerBytes (bigEndian16 (data.getD 0 0) (data.getD 1 0))
      (framePayloadLength data) = data.take 4 := by
    have four : (data.take 4).length = 4 := by
      rw [List.length_take]
      omega
    have front (i : Nat) (small : i < 4) : (data.take 4).getD i 0 = data.getD i 0 := by
      rw [List.getD_eq_getElem?_getD, List.getElem?_take_of_lt small, ← List.getD_eq_getElem?_getD]
    rw [framePayloadLength, headerBytes_bigEndian16, eq_getD_of_length_four four,
      front 0 (by decide), front 1 (by decide), front 2 (by decide), front 3 (by decide)]
  have checksum : crcBytes (hdhrCrc32 (data.take (4 + framePayloadLength data))) =
      data.drop (4 + framePayloadLength data) := by
    have four : (data.drop (4 + framePayloadLength data)).length = 4 := by
      rw [List.length_drop]
      omega
    have behind (i : Nat) : (data.drop (4 + framePayloadLength data)).getD i 0 =
        data.getD (4 + framePayloadLength data + i) 0 := by
      rw [List.getD_eq_getElem?_getD, List.getElem?_drop, ← List.getD_eq_getElem?_getD]
    rw [accepted.crc, crcBytes_littleEndian32, eq_getD_of_length_four four, behind 0,
      behind 1, behind 2, behind 3]
    rfl
  have body : data.take 4 ++ (data.drop 4).take (framePayloadLength data) =
      data.take (4 + framePayloadLength data) :=
    List.take_add.symm
  rw [frameBytes, length, header, body, checksum, List.take_append_drop]

/-- Exactly the frames that fit the buffer are opened. -/
theorem opens_iff (before : HdhrPkt) (data : List UInt8) (frameType : UInt16) :
    (∃ pkt, hdhrPktOpenFrame before data = some (pkt, frameType)) ↔
      ∃ payload, data = frameBytes frameType payload ∧ data.length ≤ hdhrPktBufferSize := by
  constructor
  · rintro ⟨pkt, opened⟩
    unfold hdhrPktOpenFrame at opened
    split at opened
    · rename_i accepted
      cases opened
      exact ⟨_, eq_frameBytes_of_accepted accepted, accepted.small⟩
    · cases opened
  · rintro ⟨payload, rfl, fits⟩
    rw [length_frameBytes] at fits
    have accepted := frameAccepted_frameBytes frameType fits
    have typed : bigEndian16 ((frameBytes frameType payload).getD 0 0)
        ((frameBytes frameType payload).getD 1 0) = frameType :=
      bigEndian16_headerBytes frameType
    rw [hdhrPktOpenFrame, dif_pos accepted, typed]
    exact ⟨_, rfl⟩

/-- What opening leaves to be read is the payload of the frame. -/
theorem remaining_openFrame {before pkt : HdhrPkt} {data : List UInt8} {frameType : UInt16}
    (opened : hdhrPktOpenFrame before data = some (pkt, frameType)) :
    FrameAccepted data ∧ frameType = bigEndian16 (data.getD 0 0) (data.getD 1 0) ∧
      pkt.remaining = (data.drop 4).take (framePayloadLength data) := by
  unfold hdhrPktOpenFrame at opened
  split at opened
  · rename_i accepted
    cases opened
    refine ⟨accepted, rfl, ?_⟩
    have small : 0 + data.length ≤ before.buffer.length := by
      rw [before.buffer_length, Nat.zero_add]
      exact accepted.small
    have declared := accepted.declared
    have enough : framePayloadLength data ≤ (data.drop 4).length := by
      rw [List.length_drop]
      omega
    simp only [HdhrPkt.remaining]
    rw [storeBytes_eq small, List.take_zero, List.nil_append,
      List.drop_append_of_le_length (by omega), Nat.add_sub_cancel_left,
      List.take_append_of_le_length enough]
  · cases opened

/-- Opening a frame that was sealed. -/
theorem openFrame_frameBytes (before : HdhrPkt) (frameType : UInt16) {payload : List UInt8}
    (fits : 4 + payload.length + 4 ≤ hdhrPktBufferSize) :
    ∃ pkt, hdhrPktOpenFrame before (frameBytes frameType payload) = some (pkt, frameType) ∧
      pkt.remaining = payload := by
  have accepted := frameAccepted_frameBytes frameType fits
  obtain ⟨pkt, type, opened⟩ : ∃ pkt type,
      hdhrPktOpenFrame before (frameBytes frameType payload) = some (pkt, type) := by
    rw [hdhrPktOpenFrame, dif_pos accepted]
    exact ⟨_, _, rfl⟩
  obtain ⟨-, typed, remaining⟩ := remaining_openFrame opened
  have small : payload.length < 2 ^ 16 := by
    have : hdhrPktBufferSize < 2 ^ 16 := by decide
    omega
  rw [framePayloadLength_frameBytes frameType small] at remaining
  have payload_eq : ((frameBytes frameType payload).drop 4).take payload.length = payload := by
    rw [frameBytes, List.append_assoc]
    exact List.take_left
  have type_eq : type = frameType := typed.trans (bigEndian16_headerBytes frameType)
  exact ⟨pkt, type_eq ▸ opened, remaining.trans payload_eq⟩

/-- The items of a frame are read from it. -/
theorem readTlvs_frameBytes (before : HdhrPkt) (frameType : UInt16) {items : List Tlv.Item}
    (room : 4 + (Tlv.encode items).length + 4 ≤ hdhrPktBufferSize) :
    ∃ pkt, hdhrPktOpenFrame before (frameBytes frameType (Tlv.encode items)) =
        some (pkt, frameType) ∧
      hdhrPktReadTlvs pkt = (items, 0) := by
  obtain ⟨pkt, opened, remaining⟩ := openFrame_frameBytes before frameType room
  have bound : (Tlv.encode items).length < Tlv.maxLength := by
    have : hdhrPktBufferSize < Tlv.maxLength := by decide
    omega
  refine ⟨pkt, opened, ?_⟩
  rw [readTlvs_eq, remaining, Tlv.decode_encode (Tlv.lt_maxLength_of_encode bound)]
  rfl

/-- Items that fit into a frame are read back from it, whatever the packet
they are read into held before. -/
theorem frame_round_trip (frameType : UInt16) (items : List Tlv.Item) (before : HdhrPkt)
    (fits : (Tlv.encode items).length ≤ 3066) :
    ∃ pkt, hdhrPktOpenFrame before
        (sealedFrame (hdhrPktWriteTlvs hdhrPktStartFrame items) frameType) =
          some (pkt, frameType) ∧
      hdhrPktReadTlvs pkt = (items, 0) := by
  have room : 4 + (Tlv.encode items).length + 4 ≤ hdhrPktBufferSize := by
    have : hdhrPktBufferSize = 3074 := rfl
    omega
  rw [sealedFrame_writeTlvs room]
  exact readTlvs_frameBytes before frameType room

theorem frame_round_trip_getset :
    ∃ pkt, hdhrPktOpenFrame hdhrPktStartFrame
        (sealedFrame (hdhrPktWriteTlvs hdhrPktStartFrame
          [⟨hdhrTagGetsetName, [0x2f, 0x73, 0]⟩, ⟨hdhrTagGetsetValue, List.replicate 300 0x31⟩])
          hdhrTypeGetsetReq) = some (pkt, hdhrTypeGetsetReq) ∧
      hdhrPktReadTlvs pkt =
        ([⟨hdhrTagGetsetName, [0x2f, 0x73, 0]⟩, ⟨hdhrTagGetsetValue, List.replicate 300 0x31⟩],
          0) := by
  apply frame_round_trip
  rw [Tlv.encode_cons, Tlv.encode_cons, Tlv.encode_nil, List.length_append, List.length_append,
    Tlv.length_encode_item, Tlv.length_encode_item, List.length_replicate]
  decide

end HdhrEmu
