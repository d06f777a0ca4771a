import HdhrEmu.PktFrame

/-!
# Walking the payload of a frame

A frame comes from the network, and its payload is read item by item until
nothing is left or something that is no item is met.  The cursor never passes
the end of the payload, whatever the frame says about lengths, and what was
read are exactly the bytes that it has passed.
-/

namespace HdhrEmu

/-- What `hdhr_pkt_read_tlv` returns. -/
def ReadTlv.code : ReadTlv → Int
  | .finished => 0
  | .malformed _ => -1
  | .tlv _ _ => 1

def ReadTlv.item? : ReadTlv → Option Tlv.Item
  | .tlv item _ => some item
  | _ => none

/-- Repeated `hdhr_pkt_read_tlv` calls, up to the first one that does not return 1. -/
def hdhrPktCalls (pkt : HdhrPkt) : List ReadTlv :=
  match _ : hdhrPktReadTlv pkt with
  | .finished => [.finished]
  | .malformed next => [.malformed next]
  | .tlv item next => .tlv item next :: hdhrPktCalls next
termination_by pkt.remaining.length
decreasing_by exact length_lt_of_readTlv ‹_›

/-- The items that calls have returned. -/
def readItems (calls : List ReadTlv) : List Tlv.Item :=
  calls.filterMap ReadTlv.item?

/-- The packet holds the payload, and its cursor is not outside of it. -/
structure HdhrPkt.Reads (pkt : HdhrPkt) (payload : List UInt8) : Prop where
  endPos : pkt.endPos = 4 + payload.length
  behindHeader : 4 ≤ pkt.pos
  inside : pkt.pos ≤ pkt.endPos
  stored : (pkt.buffer.drop 4).take payload.length = payload

/-- The offset of a value in the buffer; the cursor is behind the value. -/
def valueStart (item : Tlv.Item) (next : HdhrPkt) : Nat :=
  next.pos - item.value.length

/-- The value that is returned is a part of the payload. -/
structure ValueInside (payload : List UInt8) (item : Tlv.Item) (next : HdhrPkt) : Prop where
  start : 4 + item.value.length ≤ next.pos
  end_ : valueStart item next + item.value.length ≤ 4 + payload.length
  value : item.value = (payload.drop (valueStart item next - 4)).take item.value.length

/-- A call leaves the cursor inside of the payload, and returns a part of it. -/
def ReadTlv.Inside (payload : List UInt8) : ReadTlv → Prop
  | .finished => True
  | .malformed next => next.Reads payload
  | .tlv item next => next.Reads payload ∧ ValueInside payload item next

/-- What the calls do to a payload. -/
structure Walk (payload : List UInt8) (calls : List ReadTlv) : Prop where
  few : calls.length ≤ payload.length / 2 + 1
  goesOn : ∀ call ∈ calls.dropLast, call.code = 1
  inside : ∀ call ∈ calls, call.Inside payload
  ends : ∃ walked left, payload = walked ++ left ∧ Tlv.Sequence (readItems calls) walked ∧
    (calls.getLast?.map ReadTlv.code = some 0 ∧ left = [] ∨
      calls.getLast?.map ReadTlv.code = some (-1) ∧ left ≠ [] ∧ Tlv.Incomplete left)

section Call

variable {pkt : HdhrPkt} {payload : List UInt8}

theorem HdhrPkt.Reads.readByte {next : HdhrPkt} {byte : UInt8} (reads : pkt.Reads payload)
    (read : pkt.readByte = some (byte, next)) : next.Reads payload := by
  unfold HdhrPkt.readByte at read
  split at read
  · rename_i before
    cases read
    exact ⟨reads.endPos, Nat.le_succ_of_le reads.behindHeader, before, reads.stored⟩
  · cases read

/-- A value that is taken from the buffer is taken from the payload. -/
theorem HdhrPkt.Reads.readValue (reads : pkt.Reads payload) (tag : UInt8) (length : Nat) :
    (pkt.readValue tag length).Inside payload := by
  have behindHeader := reads.behindHeader
  have endPos := reads.endPos
  unfold HdhrPkt.readValue
  split
  · rename_i inside
    have size : ((pkt.buffer.drop pkt.pos).take length).length = length := by
      have bound := pkt.endPos_le
      rw [List.length_take, List.length_drop, pkt.buffer_length]
      omega
    have start : pkt.pos + length - length = pkt.pos := Nat.add_sub_cancel _ _
    refine ⟨⟨endPos, by dsimp only; omega, inside, reads.stored⟩, ?_, ?_, ?_⟩
    · rw [size]
      dsimp only
      omega
    · rw [valueStart, size, start]
      omega
    · rw [valueStart, size]
      dsimp only
      rw [start]
      conv_rhs => rw [← reads.stored]
      rw [List.drop_take, List.drop_drop, List.take_take, Nat.add_sub_cancel' behindHeader,
        Nat.min_eq_left (by omega)]
  · exact reads

/-- What a call does. -/
theorem HdhrPkt.Reads.readTlv (reads : pkt.Reads payload) :
    (hdhrPktReadTlv pkt).Inside payload := by
  unfold hdhrPktReadTlv
  cases first : pkt.readByte with
  | none => trivial
  | some read =>
      obtain ⟨tag, afterTag⟩ := read
      have reads := reads.readByte first
      dsimp only
      cases second : afterTag.readByte with
      | none => exact reads
      | some read =>
          obtain ⟨b0, afterB0⟩ := read
          have reads := reads.readByte second
          dsimp only
          split
          · exact reads.readValue _ _
          · cases third : afterB0.readByte with
            | none => exact reads
            | some read => exact (reads.readByte third).readValue _ _

end Call

theorem calls_inside {pkt : HdhrPkt} {payload : List UInt8} (reads : pkt.Reads payload) :
    ∀ call ∈ hdhrPktCalls pkt, call.Inside payload := by
  fun_induction hdhrPktCalls pkt with
  | case1 pkt found => exact fun call member => List.mem_singleton.mp member ▸ trivial
  | case2 pkt next found =>
      have inside := reads.readTlv
      rw [found] at inside
      exact fun call member => List.mem_singleton.mp member ▸ inside
  | case3 pkt item next found ih =>
      have inside := reads.readTlv
      rw [found] at inside
      rw [List.forall_mem_cons]
      exact ⟨inside, ih inside.1⟩

theorem hdhrPktCalls_ne_nil (pkt : HdhrPkt) : hdhrPktCalls pkt ≠ [] := by
  rw [hdhrPktCalls]
  split <;> exact List.cons_ne_nil _ _

/-- The calls return what `hdhrPktReadTlvs` collects. -/
theorem calls_eq (pkt : HdhrPkt) :
    readItems (hdhrPktCalls pkt) = (hdhrPktReadTlvs pkt).1 ∧
      (hdhrPktCalls pkt).getLast?.map ReadTlv.code = some (hdhrPktReadTlvs pkt).2 ∧
      (hdhrPktCalls pkt).length = (hdhrPktReadTlvs pkt).1.length + 1 ∧
      ∀ call ∈ (hdhrPktCalls pkt).dropLast, call.code = 1 := by
  fun_induction hdhrPktCalls pkt with
  | case1 pkt found =>
      rw [hdhrPktReadTlvs]
      split <;> simp_all [readItems, ReadTlv.item?, ReadTlv.code]
  | case2 pkt next found =>
      rw [hdhrPktReadTlvs]
      split <;> simp_all [readItems, ReadTlv.item?, ReadTlv.code]
  | case3 pkt item next found ih =>
      obtain ⟨items, last, length, goesOn⟩ := ih
      have unfolded : hdhrPktReadTlvs pkt =
          (item :: (hdhrPktReadTlvs next).1, (hdhrPktReadTlvs next).2) := by
        rw [hdhrPktReadTlvs]
        split <;> simp_all
      have some_ := hdhrPktCalls_ne_nil next
      rw [unfolded]
      refine ⟨congrArg (item :: ·) items, ?_, congrArg (· + 1) length, ?_⟩
      · rw [List.getLast?_cons_of_ne_nil some_, last]
      · rw [List.dropLast_cons_of_ne_nil some_, List.forall_mem_cons]
        exact ⟨rfl, goesOn⟩

/-- The cursor of a packet that was just opened stands at its payload. -/
theorem reads_openFrame {before pkt : HdhrPkt} {data : List UInt8} {frameType : UInt16}
    (opened : hdhrPktOpenFrame before data = some (pkt, frameType)) :
    pkt.Reads ((data.drop 4).take (framePayloadLength data)) := by
  obtain ⟨accepted, -, remaining⟩ := remaining_openFrame opened
  have declared := accepted.declared
  have length : ((data.drop 4).take (framePayloadLength data)).length = framePayloadLength data := by
    rw [List.length_take, List.length_drop]
    omega
  rw [hdhrPktOpenFrame, dif_pos accepted] at opened
  cases opened
  rw [HdhrPkt.remaining, Nat.add_sub_cancel_left] at remaining
  refine ⟨?_, le_rfl, Nat.le_add_right _ _, ?_⟩
  · rw [length]
  · rw [length, remaining]

/-- The payload of a frame that is accepted is walked to its end, or up to
something that is no item. -/
theorem payload_walked {before pkt : HdhrPkt} {data : List UInt8} {frameType : UInt16}
    (opened : hdhrPktOpenFrame before data = some (pkt, frameType)) :
    pkt.Reads ((data.drop 4).take (framePayloadLength data)) ∧
      Walk ((data.drop 4).take (framePayloadLength data)) (hdhrPktCalls pkt) := by
  have reads := reads_openFrame opened
  obtain ⟨-, -, remaining⟩ := remaining_openFrame opened
  obtain ⟨items, last, length, goesOn⟩ := calls_eq pkt
  obtain ⟨walked, left, whole, spelled, ended⟩ := Tlv.decode_sequence pkt.remaining
  rw [readTlvs_eq] at items last length
  rw [remaining] at whole spelled ended items last length
  refine ⟨reads, ?_, goesOn, calls_inside reads, walked, left, whole, items ▸ spelled, ?_⟩
  · have two := spelled.two_mul_length_le
    have size := congrArg List.length whole
    rw [List.length_append] at size
    rw [length]
    dsimp only
    omega
  · rw [last]
    split at ended
    · rename_i done
      exact Or.inl ⟨by rw [if_pos done], ended⟩
    · rename_i stuck
      exact Or.inr ⟨by rw [if_neg stuck], ended⟩

/-- An item whose length takes two bytes though it would fit one, and a byte behind it. -/
theorem payload_walked_two_byte_length :
    ∃ pkt, hdhrPktOpenFrame hdhrPktStartFrame
        (frameBytes hdhrTypeGetsetReq [0x03, 0x81, 0x00, 0x2f, 0x04]) =
          some (pkt, hdhrTypeGetsetReq) ∧
      pkt.Reads [0x03, 0x81, 0x00, 0x2f, 0x04] ∧
      Walk [0x03, 0x81, 0x00, 0x2f, 0x04] (hdhrPktCalls pkt) := by
  obtain ⟨pkt, opened, -⟩ := @openFrame_frameBytes hdhrPktStartFrame hdhrTypeGetsetReq
    [0x03, 0x81, 0x00, 0x2f, 0x04] (by decide)
  exact ⟨pkt, opened, payload_walked opened⟩

end HdhrEmu
