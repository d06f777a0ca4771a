import HdhrEmu.Crc32
import HdhrEmu.GetsetServer

/-!
# Frames that are damaged on the way

The checksum is sent behind the bytes it is computed from, low byte first, so
that the register ends up with the same word for every frame that is accepted.
Two frames of one length that are both accepted are the same, or differ at bits
that are farther apart than the register is wide.
-/

namespace HdhrEmu

open ShiftRegister

/-- The bits of a frame in the order in which they are sent. -/
def frameBits (data : List UInt8) : List Bool :=
  data.flatMap bitsOf

theorem frameBits_append (first second : List UInt8) :
    frameBits (first ++ second) = frameBits first ++ frameBits second :=
  List.flatMap_append

theorem length_frameBits (data : List UInt8) : (frameBits data).length = 8 * data.length := by
  induction data with
  | nil => rfl
  | cons byte data ih =>
      have eight : (bitsOf byte).length = 8 := rfl
      rw [frameBits, List.flatMap_cons, List.length_append, eight, List.length_cons]
      change 8 + (frameBits data).length = _
      omega

theorem bitsOf_injective : Function.Injective bitsOf := by
  intro first second same
  have words : first.toUInt32.toBitVec = second.toUInt32.toBitVec := by
    rw [← ofBits_bitsOf, same, ofBits_bitsOf]
  have values := congrArg BitVec.toNat words
  rw [UInt32.toNat_toBitVec, UInt32.toNat_toBitVec, UInt8.toNat_toUInt32,
    UInt8.toNat_toUInt32] at values
  exact UInt8.toNat_inj.mp values

theorem frameBits_injective : Function.Injective frameBits := by
  intro first
  induction first with
  | nil =>
      intro second same
      have lengths := congrArg List.length same
      rw [length_frameBits, length_frameBits, List.length_nil] at lengths
      exact (List.eq_nil_of_length_eq_zero (by omega)).symm
  | cons byte first ih =>
      intro second same
      cases second with
      | nil =>
          have lengths := congrArg List.length same
          rw [length_frameBits, length_frameBits, List.length_cons, List.length_nil] at lengths
          omega
      | cons byte' second =>
          have parts : bitsOf byte ++ frameBits first = bitsOf byte' ++ frameBits second := same
          obtain ⟨bytes, rest⟩ := List.append_inj parts rfl
          rw [bitsOf_injective bytes, ih rest]

/-- The register after the bits of some bytes. -/
def crcRegister (data : List UInt8) : BitVec 32 :=
  (frameBits data).foldl (feed crc32Polynomial.toBitVec) (BitVec.allOnes 32)

theorem reversible_crc32Polynomial : Reversible crc32Polynomial.toBitVec :=
  rfl

theorem foldl_crc32Update (data : List UInt8) (crc : UInt32) :
    data.foldl crc32Update crc = (frameBits data).foldl crc32Bit crc := by
  induction data generalizing crc with
  | nil => rfl
  | cons byte data ih =>
      rw [List.foldl_cons, ih, crc32Update_eq, ← List.foldl_append]
      rfl

theorem toBitVec_hdhrCrc32 (data : List UInt8) :
    (hdhrCrc32 data).toBitVec = crcRegister data ^^^ BitVec.allOnes 32 := by
  rw [hdhrCrc32, foldl_crc32Update, UInt32.toBitVec_xor, toBitVec_foldl_crc32Bit]
  rfl

theorem bitsOf_byte (crc : UInt32) {place : UInt32} (inside : place.toNat < 32) :
    bitsOf (crc >>> place).toUInt8 =
      (List.range 8).map fun i => crc.toNat.testBit (place.toNat + i) := by
  apply List.map_congr_left
  intro i member
  have eight : i < 8 := List.mem_range.mp member
  rw [UInt32.toNat_toUInt8, UInt32.toNat_shiftRight, Nat.mod_eq_of_lt inside,
    Nat.testBit_mod_two_pow, decide_eq_true eight, Bool.true_and, Nat.testBit_shiftRight]

/-- The checksum at the low end of a register, as it is sent. -/
theorem ofBits_crcBytes (crc : UInt32) :
    (ofBits (frameBits (crcBytes crc)) : BitVec 32) = crc.toBitVec := by
  have zero : bitsOf crc.toUInt8 = (List.range 8).map fun i => crc.toNat.testBit (0 + i) := by
    have inside : (0 : UInt32).toNat < 32 := by decide
    have moved := bitsOf_byte crc inside
    rwa [UInt32.shiftRight_zero] at moved
  have all : frameBits (crcBytes crc) = (List.range 32).map crc.toNat.testBit := by
    have parts : frameBits (crcBytes crc) = bitsOf crc.toUInt8 ++ (bitsOf (crc >>> 8).toUInt8 ++
        (bitsOf (crc >>> 16).toUInt8 ++ bitsOf (crc >>> 24).toUInt8)) := by
      simp [frameBits, crcBytes]
    rw [parts, zero, bitsOf_byte crc (by decide), bitsOf_byte crc (by decide),
      bitsOf_byte crc (by decide)]
    rfl
  apply BitVec.eq_of_getLsbD_eq
  intro i less
  rw [getLsbD_ofBits, all, ← BitVec.testBit_toNat, UInt32.toNat_toBitVec]
  simp [List.getD, less]

/-- Behind an accepted frame the register does not depend on the frame. -/
theorem crcRegister_of_accepted {data : List UInt8} (accepted : FrameAccepted data) :
    crcRegister data = (shift crc32Polynomial.toBitVec)^[32] (BitVec.allOnes 32) := by
  obtain ⟨body, whole⟩ : ∃ body, data = body ++ crcBytes (hdhrCrc32 body) :=
    ⟨_, eq_frameBytes_of_accepted accepted⟩
  have wide : (frameBits (crcBytes (hdhrCrc32 body))).length = 32 := rfl
  rw [whole, crcRegister, frameBits_append, List.foldl_append]
  change List.foldl _ (crcRegister body) _ = _
  rw [foldl_feed _ (by rw [wide]), ofBits_crcBytes, toBitVec_hdhrCrc32, wide, ← BitVec.xor_assoc,
    BitVec.xor_self, BitVec.zero_xor]

/-- Frames that are accepted differ in more than one short stretch of bits. -/
theorem eq_of_accepted_burst {sent received : List UInt8} (accepted : FrameAccepted sent)
    (also : FrameAccepted received) (burst : Burst 32 (frameBits sent) (frameBits received)) :
    received = sent := by
  apply frameBits_injective
  refine (eq_of_burst reversible_crc32Polynomial (BitVec.allOnes 32) burst ?_).symm
  exact (crcRegister_of_accepted accepted).trans (crcRegister_of_accepted also).symm

theorem length_of_burst {sent received : List UInt8}
    (burst : Burst 32 (frameBits sent) (frameBits received)) : received.length = sent.length := by
  have first := congrArg List.length burst.sent_eq
  have second := congrArg List.length burst.received_eq
  have same := burst.length_eq
  rw [length_frameBits, List.length_append, List.length_append] at first second
  omega

/-- A frame whose length is read as it was sent, but which is not accepted,
ends the connection. -/
theorem connThreadMain_rejected {pkt : HdhrPkt} {data : List UInt8} (rest : List UInt8)
    (declared : 4 + framePayloadLength data + 4 = data.length)
    (rejected : hdhrPktOpenFrame pkt data = none) : connThreadMain pkt (data ++ rest) = [] := by
  have same : framePayloadLength (data ++ rest) = framePayloadLength data := by
    rw [framePayloadLength, framePayloadLength, List.getD_append _ _ _ _ (by omega),
      List.getD_append _ _ _ _ (by omega)]
  rw [connThreadMain]
  simp only [same, declared, List.take_left, rejected]
  split
  · rfl
  · split
    · rfl
    · split <;> rfl

/-- A frame that the server opens. -/
structure ReadableFrame where
  data : List UInt8
  accepted : FrameAccepted data
  small : data.length ≤ hdhrMaxPacketSize

theorem connThreadMain_append {pkt : HdhrPkt} (frames : List ReadableFrame) (rest : List UInt8) :
    connThreadMain pkt (frames.flatMap ReadableFrame.data ++ rest) =
      connThreadMain pkt (frames.flatMap ReadableFrame.data) ++ connThreadMain pkt rest := by
  induction frames with
  | nil =>
      have nothing : connThreadMain pkt [] = [] := by
        rw [connThreadMain]
        rfl
      rw [List.flatMap_nil, nothing]
      rfl
  | cons frame frames ih =>
      obtain ⟨opened, frameType, received⟩ : ∃ opened frameType,
          hdhrPktOpenFrame pkt frame.data = some (opened, frameType) := by
        rw [hdhrPktOpenFrame, dif_pos frame.accepted]
        exact ⟨_, _, rfl⟩
      rw [List.flatMap_cons, List.append_assoc, connThreadMain_frame received frame.small,
        connThreadMain_frame received frame.small, ih, List.append_assoc]

/-- A frame that is damaged in a stretch of at most 32 bits is not accepted.
If its length is read as it was sent, the server carries out the requests that
came before it and no other. -/
theorem burst_error_rejected (pkt : HdhrPkt) (before : List ReadableFrame) (sent : ReadableFrame)
    {received : List UInt8} (burst : Burst 32 (frameBits sent.data) (frameBits received))
    (damaged : received ≠ sent.data) :
    hdhrPktOpenFrame pkt received = none ∧
      (framePayloadLength received = framePayloadLength sent.data → ∀ rest,
        connThreadMain pkt (before.flatMap ReadableFrame.data ++ (received ++ rest)) =
          connThreadMain pkt (before.flatMap ReadableFrame.data)) := by
  have rejected : hdhrPktOpenFrame pkt received = none := by
    rw [hdhrPktOpenFrame, dif_neg]
    exact fun also => damaged (eq_of_accepted_burst sent.accepted also burst)
  refine ⟨rejected, fun kept rest => ?_⟩
  have declared : 4 + framePayloadLength received + 4 = received.length := by
    rw [kept, length_of_burst burst, sent.accepted.declared]
  rw [connThreadMain_append, connThreadMain_rejected rest declared rejected, List.append_nil]

/-- A request without items. -/
def emptyRequest : ReadableFrame where
  data := frameBytes hdhrTypeGetsetReq []
  accepted := frameAccepted_frameBytes hdhrTypeGetsetReq (by decide)
  small := by rw [length_frameBytes]; decide

/-- A request of the client for `help`. -/
def helpRequest : ReadableFrame where
  data := frameBytes hdhrTypeGetsetReq (Tlv.encode (clientItems [0x68, 0x65, 0x6c, 0x70] none))
  accepted := frameAccepted_frameBytes hdhrTypeGetsetReq (by decide)
  small := by rw [length_frameBytes]; decide

theorem connThreadMain_helpRequest :
    connThreadMain hdhrPktStartFrame (helpRequest.data ++ []) =
      [.get [0x68, 0x65, 0x6c, 0x70]] := by
  have written : getsetClientRequest [0x68, 0x65, 0x6c, 0x70] none = helpRequest.data :=
    getsetClientRequest_eq (by decide)
  have nothing : connThreadMain hdhrPktStartFrame [] = [] := by
    rw [connThreadMain]
    exact if_pos (by decide)
  obtain ⟨opened, received, small, read⟩ :=
    @client_received hdhrPktStartFrame [0x68, 0x65, 0x6c, 0x70] none (by decide)
  rw [written] at received small
  rw [connThreadMain_frame received small, if_pos rfl, getsetDispatch_eq read, nothing]
  rfl

/-- The type of the empty request, with its lowest bit flipped. -/
def flippedType : Burst 32 (frameBits emptyRequest.data)
    (frameBits ([0, 5, 0, 0] ++ crcBytes (hdhrCrc32 [0, 4, 0, 0]))) where
  front := bitsOf 0
  was := bitsOf 4
  became := bitsOf 5
  back := bitsOf 0 ++ (bitsOf 0 ++ frameBits (crcBytes (hdhrCrc32 [0, 4, 0, 0])))
  sent_eq := rfl
  received_eq := rfl
  length_eq := rfl
  length_le := by decide

/-- The request in front of the damaged one is carried out, and no other. -/
theorem burst_error_rejected_type :
    connThreadMain hdhrPktStartFrame
        (helpRequest.data ++ [] ++ ([0, 5, 0, 0] ++ crcBytes (hdhrCrc32 [0, 4, 0, 0]) ++ [])) =
      [.get [0x68, 0x65, 0x6c, 0x70]] := by
  rw [← connThreadMain_helpRequest]
  refine (burst_error_rejected hdhrPktStartFrame [helpRequest] emptyRequest flippedType ?_).2 rfl []
  intro same
  have types : (5 : UInt8) = 4 := congrArg (fun bytes => bytes.getD 1 0) same
  cases types

end HdhrEmu
