import HdhrEmu.Lib.Tlv

/-!
# The packet buffer

A packet is a buffer of fixed size with a cursor and the end of the payload.
Writers drop what does not fit between the cursor and the end of the buffer;
sealing puts the header in front and the checksum behind the payload, and does
not look at the size of the buffer again.
-/

namespace HdhrEmu

/-- `HDHR_PKT_BUFFER_SIZE`. -/
def hdhrPktBufferSize : Nat := 3074

/-- `HDHR_MAX_PACKET_SIZE`. -/
def hdhrMaxPacketSize : Nat := 1460

def hdhrTypeGetsetReq : UInt16 := 0x0004
def hdhrTypeGetsetRpy : UInt16 := 0x0005

def hdhrTagGetsetName : UInt8 := 0x03
def hdhrTagGetsetValue : UInt8 := 0x04
def hdhrTagErrorMessage : UInt8 := 0x05

/-- One round of `crc32_table_init` for one bit. -/
def crc32Round (c : UInt32) : UInt32 :=
  if c &&& 1 = 0 then c >>> 1 else (0xEDB88320 : UInt32) ^^^ (c >>> 1)

/-- `crc32_table` after `crc32_table_init`. -/
def crc32Table : List UInt32 :=
  (List.range 256).map fun i => crc32Round^[8] (UInt32.ofNat i)

def crc32Update (crc : UInt32) (byte : UInt8) : UInt32 :=
  crc32Table.getD ((crc ^^^ byte.toUInt32) &&& 0xFF).toNat 0 ^^^ (crc >>> 8)

def hdhrCrc32 (data : List UInt8) : UInt32 :=
  data.foldl crc32Update 0xFFFFFFFF ^^^ 0xFFFFFFFF

/-- `struct hdhr_pkt`.  The pointers are offsets into the buffer; `start` is
always 0 and `limit` always the size of the buffer. -/
structure HdhrPkt where
  buffer : List UInt8
  pos : Nat
  endPos : Nat
  buffer_length : buffer.length = hdhrPktBufferSize
  pos_le : pos ≤ hdhrPktBufferSize
  endPos_le : endPos ≤ hdhrPktBufferSize

/-- Bytes are stored one after the other. -/
def storeBytes (buffer : List UInt8) (at_ : Nat) : List UInt8 → List UInt8
  | [] => buffer
  | byte :: bytes => storeBytes (buffer.set at_ byte) (at_ + 1) bytes

@[simp]
theorem length_storeBytes (buffer : List UInt8) (at_ : Nat) (bytes : List UInt8) :
    (storeBytes buffer at_ bytes).length = buffer.length := by
  induction bytes generalizing buffer at_ with
  | nil => rfl
  | cons byte bytes ih => rw [storeBytes, ih, List.length_set]

theorem storeBytes_eq {buffer : List UInt8} {at_ : Nat} {bytes : List UInt8}
    (fits : at_ + bytes.length ≤ buffer.length) :
    storeBytes buffer at_ bytes =
      buffer.take at_ ++ bytes ++ buffer.drop (at_ + bytes.length) := by
  induction bytes generalizing buffer at_ with
  | nil => simp [storeBytes]
  | cons byte bytes ih =>
      rw [List.length_cons] at fits
      have inside : at_ < buffer.length := by omega
      rw [storeBytes, ih (by rw [List.length_set]; omega)]
      have before : (buffer.set at_ byte).take (at_ + 1) = buffer.take at_ ++ [byte] := by
        rw [List.take_set, List.set_eq_take_append_cons_drop]
        simp [inside, List.take_take]
      have after : (buffer.set at_ byte).drop (at_ + 1 + bytes.length) =
          buffer.drop (at_ + (byte :: bytes).length) := by
        rw [List.drop_set_of_lt (by omega), List.length_cons]
        congr 1
        omega
      rw [before, after]
      simp

/-- `hdhr_pkt_start_frame`, after `hdhr_pkt_init`. -/
def hdhrPktStartFrame : HdhrPkt where
  buffer := List.replicate hdhrPktBufferSize 0
  pos := 4
  endPos := 4
  buffer_length := List.length_replicate
  pos_le := by decide
  endPos_le := by decide

/-- `hdhr_pkt_write_mem`; `hdhr_pkt_write_u8` is the case of one byte. -/
def hdhrPktWriteMem (pkt : HdhrPkt) (mem : List UInt8) : HdhrPkt :=
  if fits : pkt.pos + mem.length ≤ hdhrPktBufferSize then
    { buffer := storeBytes pkt.buffer pkt.pos mem
      pos := pkt.pos + mem.length
      endPos := pkt.pos + mem.length
      buffer_length := by rw [length_storeBytes, pkt.buffer_length]
      pos_le := fits
      endPos_le := fits }
  else pkt

def hdhrPktWriteU8 (pkt : HdhrPkt) (v : UInt8) : HdhrPkt :=
  hdhrPktWriteMem pkt [v]

def hdhrPktWriteVarLength (pkt : HdhrPkt) (len : Nat) : HdhrPkt :=
  if len ≤ 127 then hdhrPktWriteU8 pkt (UInt8.ofNat len)
  else
    hdhrPktWriteU8 (hdhrPktWriteU8 pkt (UInt8.ofNat ((len &&& 0x7F) ||| 0x80)))
      (UInt8.ofNat (len >>> 7))

def hdhrPktWriteTlv (pkt : HdhrPkt) (item : Tlv.Item) : HdhrPkt :=
  hdhrPktWriteMem
    (hdhrPktWriteVarLength (hdhrPktWriteU8 pkt item.tag) item.value.length) item.value

/-- `hdhr_pkt_write_tlv_u32`. -/
def hdhrPktWriteTlvU32 (pkt : HdhrPkt) (tag : UInt8) (v : UInt32) : HdhrPkt :=
  hdhrPktWriteTlv pkt
    ⟨tag, [(v >>> 24).toUInt8, (v >>> 16).toUInt8, (v >>> 8).toUInt8, v.toUInt8]⟩

/-- `hdhr_pkt_write_tlv_str`: the terminating zero byte is part of the value. -/
def hdhrPktWriteTlvStr (pkt : HdhrPkt) (tag : UInt8) (str : List UInt8) : HdhrPkt :=
  hdhrPktWriteTlv pkt ⟨tag, str ++ [0]⟩

def HdhrPkt.payloadLength (pkt : HdhrPkt) : Nat :=
  pkt.endPos - 4

def headerBytes (frameType : UInt16) (payloadLength : Nat) : List UInt8 :=
  [(frameType >>> 8).toUInt8, frameType.toUInt8, UInt8.ofNat (payloadLength >>> 8),
    UInt8.ofNat payloadLength]

def crcBytes (crc : UInt32) : List UInt8 :=
  [crc.toUInt8, (crc >>> 8).toUInt8, (crc >>> 16).toUInt8, (crc >>> 24).toUInt8]

/-- The offsets that `hdhr_pkt_seal_frame` writes to. -/
def sealOffsets (pkt : HdhrPkt) : List Nat :=
  List.range 4 ++ (List.range 4).map (4 + pkt.payloadLength + ·)

/-- `hdhr_pkt_seal_frame`, and the length it returns. -/
def hdhrPktSealFrame (pkt : HdhrPkt) (frameType : UInt16) : HdhrPkt × Nat :=
  let headed := storeBytes pkt.buffer 0 (headerBytes frameType pkt.payloadLength)
  let crc := hdhrCrc32 (headed.take (4 + pkt.payloadLength))
  ({ pkt with
    buffer := storeBytes headed (4 + pkt.payloadLength) (crcBytes crc)
    buffer_length := by rw [length_storeBytes, length_storeBytes, pkt.buffer_length] },
    4 + pkt.payloadLength + 4)

/-- The bytes that a caller sends. -/
def sealedFrame (pkt : HdhrPkt) (frameType : UInt16) : List UInt8 :=
  (hdhrPktSealFrame pkt frameType).1.buffer.take (hdhrPktSealFrame pkt frameType).2

/-- Two bytes, the high one first. -/
def bigEndian16 (high low : UInt8) : UInt16 :=
  (high.toUInt16 <<< 8) ||| low.toUInt16

/-- Four bytes, the low one first. -/
def littleEndian32 (b0 b1 b2 b3 : UInt8) : UInt32 :=
  b0.toUInt32 ||| (b1.toUInt32 <<< 8) ||| (b2.toUInt32 <<< 16) ||| (b3.toUInt32 <<< 24)

def framePayloadLength (data : List UInt8) : Nat :=
  (bigEndian16 (data.getD 2 0) (data.getD 3 0)).toNat

/-- The checks of `hdhr_pkt_open_frame`. -/
structure FrameAccepted (data : List UInt8) : Prop where
  large : 4 + 4 ≤ data.length
  small : data.length ≤ hdhrPktBufferSize
  declared : 4 + framePayloadLength data + 4 = data.length
  crc : hdhrCrc32 (data.take (4 + framePayloadLength data)) =
    littleEndian32 (data.getD (4 + framePayloadLength data) 0)
      (data.getD (4 + framePayloadLength data + 1) 0)
      (data.getD (4 + framePayloadLength data + 2) 0)
      (data.getD (4 + framePayloadLength data + 3) 0)

theorem frameAccepted_iff (data : List UInt8) :
    FrameAccepted data ↔ 4 + 4 ≤ data.length ∧ data.length ≤ hdhrPktBufferSize ∧
      4 + framePayloadLength data + 4 = data.length ∧
      hdhrCrc32 (data.take (4 + framePayloadLength data)) =
        littleEndian32 (data.getD (4 + framePayloadLength data) 0)
          (data.getD (4 + framePayloadLength data + 1) 0)
          (data.getD (4 + framePayloadLength data + 2) 0)
          (data.getD (4 + framePayloadLength data + 3) 0) :=
  ⟨fun ⟨large, small, declared, crc⟩ => ⟨large, small, declared, crc⟩,
    fun ⟨large, small, declared, crc⟩ => ⟨large, small, declared, crc⟩⟩

instance (data : List UInt8) : Decidable (FrameAccepted data) :=
  decidable_of_iff _ (frameAccepted_iff data).symm

/-- `hdhr_pkt_open_frame`; what `pkt` held before stays behind the frame. -/
def hdhrPktOpenFrame (pkt : HdhrPkt) (data : List UInt8) : Option (HdhrPkt × UInt16) :=
  if accepted : FrameAccepted data then
    some
      ({ buffer := storeBytes pkt.buffer 0 data
         pos := 4
         endPos := 4 + framePayloadLength data
         buffer_length := by rw [length_storeBytes, pkt.buffer_length]
         pos_le := by decide
         endPos_le := by have := accepted.declared; have := accepted.small; omega },
        bigEndian16 (data.getD 0 0) (data.getD 1 0))
  else none

/-- The results 0, -1 and 1 of `hdhr_pkt_read_tlv`, with the cursor moved. -/
inductive ReadTlv
  | finished
  | malformed (pkt : HdhrPkt)
  | tlv (item : Tlv.Item) (pkt : HdhrPkt)

/-- The byte under the cursor, and the cursor behind it. -/
def HdhrPkt.readByte (pkt : HdhrPkt) : Option (UInt8 × HdhrPkt) :=
  if before : pkt.pos < pkt.endPos then
    some (pkt.buffer.getD pkt.pos 0,
      { pkt with
        pos := pkt.pos + 1
        pos_le := Nat.le_trans before pkt.endPos_le })
  else none

def HdhrPkt.readValue (pkt : HdhrPkt) (tag : UInt8) (length : Nat) : ReadTlv :=
  if inside : pkt.pos + length ≤ pkt.endPos then
    .tlv ⟨tag, (pkt.buffer.drop pkt.pos).take length⟩
      { pkt with
        pos := pkt.pos + length
        pos_le := Nat.le_trans inside pkt.endPos_le }
  else .malformed pkt

def hdhrPktReadTlv (pkt : HdhrPkt) : ReadTlv :=
  match pkt.readByte with
  | none => .finished
  | some (tag, pkt) =>
      match pkt.readByte with
      | none => .malformed pkt
      | some (b0, pkt) =>
          if b0 &&& 0x80 = 0 then pkt.readValue tag b0.toNat
          else
            match pkt.readByte with
            | none => .malformed pkt
            | some (b1, pkt) =>
                pkt.readValue tag ((b0 &&& 0x7F).toNat ||| (b1.toNat <<< 7))

end HdhrEmu
