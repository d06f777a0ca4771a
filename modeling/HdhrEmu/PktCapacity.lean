import HdhrEmu.PktFrame

/-!
# Packets that run full

The room in the buffer is checked for the tag, for each length byte and for the
value on their own, and never for the four checksum bytes.  Nothing is cut and
nothing is written outside exactly as long as all items fit with the checksum.
-/

namespace HdhrEmu

/-- A call that writes an item. -/
inductive WriteCall
  | tlv (item : Tlv.Item)
  | u32 (tag : UInt8) (v : UInt32)
  | str (tag : UInt8) (text : List UInt8)

def WriteCall.write (pkt : HdhrPkt) : WriteCall → HdhrPkt
  | .tlv item => hdhrPktWriteTlv pkt item
  | .u32 tag v => hdhrPktWriteTlvU32 pkt tag v
  | .str tag text => hdhrPktWriteTlvStr pkt tag text

/-- The item that a call is to write. -/
def WriteCall.item : WriteCall → Tlv.Item
  | .tlv item => item
  | .u32 tag v => ⟨tag, [(v >>> 24).toUInt8, (v >>> 16).toUInt8, (v >>> 8).toUInt8, v.toUInt8]⟩
  | .str tag text => ⟨tag, text ++ [0]⟩

theorem WriteCall.write_eq (pkt : HdhrPkt) (call : WriteCall) :
    call.write pkt = hdhrPktWriteTlv pkt call.item := by
  cases call <;> rfl

def writeCalls (pkt : HdhrPkt) (calls : List WriteCall) : HdhrPkt :=
  calls.foldl WriteCall.write pkt

theorem writeCalls_cons (pkt : HdhrPkt) (call : WriteCall) (calls : List WriteCall) :
    writeCalls pkt (call :: calls) = writeCalls (call.write pkt) calls :=
  rfl

/-- The bytes that a sequence of calls is to write. -/
def callsLength (calls : List WriteCall) : Nat :=
  (Tlv.encode (calls.map WriteCall.item)).length

theorem callsLength_cons (call : WriteCall) (calls : List WriteCall) :
    callsLength (call :: calls) = call.item.encode.length + callsLength calls := by
  rw [callsLength, List.map_cons, Tlv.encode_cons, List.length_append, callsLength]

/-- Every call whose item does not fit leaves the packet as it was. -/
def WritesWhole (pkt : HdhrPkt) : List WriteCall → Prop
  | [] => True
  | call :: calls =>
      (hdhrPktBufferSize < pkt.pos + call.item.encode.length → call.write pkt = pkt) ∧
        WritesWhole (call.write pkt) calls

/-- Sealing writes inside of the buffer. -/
def SealsInside (pkt : HdhrPkt) : Prop :=
  ∀ offset ∈ sealOffsets pkt, offset < hdhrPktBufferSize

theorem sealsInside_iff (pkt : HdhrPkt) :
    SealsInside pkt ↔ 4 + pkt.payloadLength + 4 ≤ hdhrPktBufferSize := by
  have size : hdhrPktBufferSize = 3074 := rfl
  constructor
  · intro inside
    have last := inside (4 + pkt.payloadLength + 3) (by simp [sealOffsets])
    omega
  · intro room offset member
    simp only [sealOffsets, List.mem_append, List.mem_map, List.mem_range] at member
    obtain before | ⟨i, bound, rfl⟩ := member
    · omega
    · omega

/-- The cursor stands behind the header, at the end of the payload. -/
structure Filling (pkt : HdhrPkt) : Prop where
  atEnd : pkt.endPos = pkt.pos
  behindHeader : 4 ≤ pkt.pos

theorem filling_startFrame : Filling hdhrPktStartFrame where
  atEnd := rfl
  behindHeader := le_rfl

theorem Filling.mem {pkt : HdhrPkt} (filling : Filling pkt) (mem : List UInt8) :
    Filling (hdhrPktWriteMem pkt mem) := by
  unfold hdhrPktWriteMem
  split
  · exact ⟨rfl, Nat.le_trans filling.behindHeader (Nat.le_add_right _ _)⟩
  · exact filling

theorem pos_le_writeMem (pkt : HdhrPkt) (mem : List UInt8) :
    pkt.pos ≤ (hdhrPktWriteMem pkt mem).pos := by
  unfold hdhrPktWriteMem
  split
  · exact Nat.le_add_right _ _
  · exact le_rfl

theorem pos_writeU8 {pkt : HdhrPkt} (room : pkt.pos < hdhrPktBufferSize) (v : UInt8) :
    (hdhrPktWriteU8 pkt v).pos = pkt.pos + 1 := by
  have fits : pkt.pos + [v].length ≤ hdhrPktBufferSize := room
  rw [hdhrPktWriteU8, hdhrPktWriteMem, dif_pos fits]
  rfl

theorem Filling.varLength {pkt : HdhrPkt} (filling : Filling pkt) (len : Nat) :
    Filling (hdhrPktWriteVarLength pkt len) := by
  unfold hdhrPktWriteVarLength
  split
  · exact filling.mem _
  · exact (filling.mem _).mem _

theorem pos_le_writeVarLength (pkt : HdhrPkt) (len : Nat) :
    pkt.pos ≤ (hdhrPktWriteVarLength pkt len).pos := by
  unfold hdhrPktWriteVarLength
  split
  · exact pos_le_writeMem _ _
  · exact Nat.le_trans (pos_le_writeMem _ _) (pos_le_writeMem _ _)

theorem Filling.call {pkt : HdhrPkt} (filling : Filling pkt) (call : WriteCall) :
    Filling (call.write pkt) := by
  rw [call.write_eq]
  exact ((filling.mem _).varLength _).mem _

/-- The tag is written as long as there is room for one byte, whatever
becomes of the rest. -/
theorem pos_lt_write {pkt : HdhrPkt} (room : pkt.pos < hdhrPktBufferSize) (call : WriteCall) :
    pkt.pos < (call.write pkt).pos := by
  rw [call.write_eq]
  have tag := pos_writeU8 room call.item.tag
  have length := pos_le_writeVarLength (hdhrPktWriteU8 pkt call.item.tag) call.item.value.length
  have value := pos_le_writeMem
    (hdhrPktWriteVarLength (hdhrPktWriteU8 pkt call.item.tag) call.item.value.length)
    call.item.value
  unfold hdhrPktWriteTlv
  omega

theorem pos_le_write (pkt : HdhrPkt) (call : WriteCall) : pkt.pos ≤ (call.write pkt).pos := by
  rw [call.write_eq]
  exact Nat.le_trans (pos_le_writeMem _ _)
    (Nat.le_trans (pos_le_writeVarLength _ _) (pos_le_writeMem _ _))

theorem pos_le_writeCalls (pkt : HdhrPkt) (calls : List WriteCall) :
    pkt.pos ≤ (writeCalls pkt calls).pos := by
  induction calls generalizing pkt with
  | nil => exact le_rfl
  | cons call calls ih => exact Nat.le_trans (pos_le_write pkt call) (ih _)

theorem Filling.calls {pkt : HdhrPkt} (filling : Filling pkt) (calls : List WriteCall) :
    Filling (writeCalls pkt calls) := by
  induction calls generalizing pkt with
  | nil => exact filling
  | cons call calls ih => exact ih (filling.call call)

theorem pos_writeMem {pkt : HdhrPkt} {mem : List UInt8}
    (fits : pkt.pos + mem.length ≤ hdhrPktBufferSize) :
    (hdhrPktWriteMem pkt mem).pos = pkt.pos + mem.length := by
  rw [hdhrPktWriteMem, dif_pos fits]

theorem pos_writeVarLength {pkt : HdhrPkt} {len : Nat}
    (fits : pkt.pos + (Tlv.lengthBytes len).length ≤ hdhrPktBufferSize) :
    (hdhrPktWriteVarLength pkt len).pos = pkt.pos + (Tlv.lengthBytes len).length := by
  rw [Tlv.length_lengthBytes] at fits ⊢
  unfold hdhrPktWriteVarLength
  by_cases short : len ≤ 127
  · rw [if_pos short] at fits ⊢
    rw [if_pos short]
    exact pos_writeU8 (by omega) _
  · rw [if_neg short] at fits ⊢
    rw [if_neg short]
    have room : pkt.pos < hdhrPktBufferSize := by omega
    have low := pos_writeU8 room (UInt8.ofNat ((len &&& 0x7F) ||| 0x80))
    rw [pos_writeU8 (by omega), low]

/-- An item that fits moves the cursor by its size. -/
theorem pos_write {pkt : HdhrPkt} {call : WriteCall}
    (fits : pkt.pos + call.item.encode.length ≤ hdhrPktBufferSize) :
    (call.write pkt).pos = pkt.pos + call.item.encode.length := by
  rw [call.write_eq]
  simp only [Tlv.Item.encode, List.length_cons, List.length_append] at fits ⊢
  have room : pkt.pos < hdhrPktBufferSize := by omega
  have tag := pos_writeU8 room call.item.tag
  have lengthRoom : (hdhrPktWriteU8 pkt call.item.tag).pos +
      (Tlv.lengthBytes call.item.value.length).length ≤ hdhrPktBufferSize := by omega
  have length := pos_writeVarLength lengthRoom
  unfold hdhrPktWriteTlv
  rw [pos_writeMem (by omega)]
  omega

theorem writesWhole_of_fits {pkt : HdhrPkt} {calls : List WriteCall}
    (fits : pkt.pos + callsLength calls ≤ hdhrPktBufferSize) :
    WritesWhole pkt calls ∧ (writeCalls pkt calls).pos = pkt.pos + callsLength calls := by
  induction calls generalizing pkt with
  | nil => exact ⟨trivial, rfl⟩
  | cons call calls ih =>
      rw [callsLength_cons] at fits
      have callFits : pkt.pos + call.item.encode.length ≤ hdhrPktBufferSize := by omega
      have first := pos_write callFits
      have restFits : (call.write pkt).pos + callsLength calls ≤ hdhrPktBufferSize := by omega
      obtain ⟨whole, end_⟩ := ih restFits
      refine ⟨⟨fun tooLong => absurd tooLong (by omega), whole⟩, ?_⟩
      rw [writeCalls_cons, end_, first, callsLength_cons]
      omega

/-- When nothing is cut and the last byte is not reached, every item is
written whole. -/
theorem fits_of_writesWhole {pkt : HdhrPkt} {calls : List WriteCall}
    (whole : WritesWhole pkt calls) (room : (writeCalls pkt calls).pos < hdhrPktBufferSize) :
    (writeCalls pkt calls).pos = pkt.pos + callsLength calls := by
  induction calls generalizing pkt with
  | nil => rfl
  | cons call calls ih =>
      obtain ⟨unchanged, rest⟩ := whole
      rw [writeCalls_cons] at room
      have after : (call.write pkt).pos < hdhrPktBufferSize :=
        Nat.lt_of_le_of_lt (pos_le_writeCalls _ calls) room
      have before : pkt.pos < hdhrPktBufferSize :=
        Nat.lt_of_le_of_lt (pos_le_write pkt call) after
      by_cases fits : pkt.pos + call.item.encode.length ≤ hdhrPktBufferSize
      · rw [writeCalls_cons, ih rest room, pos_write fits, callsLength_cons]
        omega
      · -- the tag of an item that does not fit would have been written
        have moved := pos_lt_write before call
        rw [unchanged (by omega)] at moved
        exact absurd moved (Nat.lt_irrefl _)

/-- Items are written whole or not at all, and the checksum inside of the
buffer, exactly when all items fit with the checksum. -/
theorem frame_written_inside_iff (calls : List WriteCall) :
    (WritesWhole hdhrPktStartFrame calls ∧ SealsInside (writeCalls hdhrPktStartFrame calls)) ↔
      callsLength calls ≤ 3066 := by
  have size : hdhrPktBufferSize = 3074 := rfl
  have start : hdhrPktStartFrame.pos = 4 := rfl
  have filling := filling_startFrame.calls calls
  have atEnd := filling.atEnd
  have behindHeader := filling.behindHeader
  rw [sealsInside_iff, HdhrPkt.payloadLength]
  constructor
  · rintro ⟨whole, inside⟩
    have written := fits_of_writesWhole whole (by omega)
    omega
  · intro short
    have fits : hdhrPktStartFrame.pos + callsLength calls ≤ hdhrPktBufferSize := by omega
    obtain ⟨whole, written⟩ := writesWhole_of_fits fits
    exact ⟨whole, by omega⟩

/-- One value of 3071 bytes: its tag and its length stay behind without it. -/
theorem long_value_cut :
    ¬ (WritesWhole hdhrPktStartFrame [.tlv ⟨hdhrTagGetsetValue, List.replicate 3071 0x31⟩] ∧
      SealsInside (writeCalls hdhrPktStartFrame
        [.tlv ⟨hdhrTagGetsetValue, List.replicate 3071 0x31⟩])) := by
  rintro ⟨⟨unchanged, -⟩, -⟩
  have room : hdhrPktStartFrame.pos < hdhrPktBufferSize := by decide
  have moved := pos_lt_write room
    (.tlv ⟨hdhrTagGetsetValue, List.replicate 3071 0x31⟩)
  rw [unchanged (by
    rw [WriteCall.item, Tlv.length_encode_item, List.length_replicate]
    decide)] at moved
  exact Nat.lt_irrefl _ moved

end HdhrEmu
