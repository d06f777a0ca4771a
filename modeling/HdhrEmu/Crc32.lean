import HdhrEmu.HdhrPkt
import HdhrEmu.Lib.ShiftRegister

/-!
# The checksum by table and bit by bit

The checksum of a frame is computed with a table for the low byte of the
register.  An entry of the table is what eight shifts make of that byte, and as
the shift is linear, that is what eight bits of the message do to the register.
-/

namespace HdhrEmu

def crc32Polynomial : UInt32 := 0xEDB88320

/-- The bits of a byte in the order in which they are sent, the low one first. -/
def bitsOf (byte : UInt8) : List Bool :=
  (List.range 8).map byte.toNat.testBit

/-- One bit of a message. -/
def crc32Bit (crc : UInt32) (bit : Bool) : UInt32 :=
  if (crc &&& 1 == 1) != bit then (crc >>> 1) ^^^ crc32Polynomial else crc >>> 1

/-- The reflected CRC-32 of a message, computed one bit at a time. -/
def crc32Serial (data : List UInt8) : UInt32 :=
  (data.flatMap bitsOf).foldl crc32Bit 0xFFFFFFFF ^^^ 0xFFFFFFFF

theorem and_one_beq_one (crc : UInt32) : (crc &&& 1 == 1) = crc.toBitVec.getLsbD 0 := by
  rw [Bool.eq_iff_iff, beq_iff_eq, ← UInt32.toNat_inj, UInt32.toNat_and, UInt32.toNat_one,
    Nat.and_one_is_mod, ← BitVec.testBit_toNat, UInt32.toNat_toBitVec, Nat.testBit_zero,
    decide_eq_true_iff]

theorem and_one_eq_zero_iff (crc : UInt32) : crc &&& 1 = 0 ↔ crc.toBitVec.getLsbD 0 = false := by
  rw [← and_one_beq_one, beq_eq_false_iff_ne, ne_eq, ← UInt32.toNat_inj, ← UInt32.toNat_inj,
    UInt32.toNat_and, UInt32.toNat_one, UInt32.toNat_zero, Nat.and_one_is_mod]
  omega

/-- A round is a shift. -/
theorem toBitVec_crc32Round (c : UInt32) :
    (crc32Round c).toBitVec = ShiftRegister.shift crc32Polynomial.toBitVec c.toBitVec := by
  unfold crc32Round ShiftRegister.shift
  cases low : c.toBitVec.getLsbD 0 with
  | false => rw [if_pos ((and_one_eq_zero_iff c).mpr low)]; rfl
  | true =>
      have odd : ¬ c &&& 1 = 0 := fun even => by
        rw [(and_one_eq_zero_iff c).mp even] at low
        cases low
      rw [if_neg odd, UInt32.toBitVec_xor, BitVec.xor_comm]
      rfl

theorem toBitVec_iterate_crc32Round (count : Nat) (c : UInt32) :
    (crc32Round^[count] c).toBitVec =
      (ShiftRegister.shift crc32Polynomial.toBitVec)^[count] c.toBitVec := by
  induction count generalizing c with
  | zero => rfl
  | succ count ih => rw [Function.iterate_succ_apply, ih, toBitVec_crc32Round]; rfl

/-- A bit of the message is added to the register, and the register shifted. -/
theorem toBitVec_crc32Bit (crc : UInt32) (bit : Bool) :
    (crc32Bit crc bit).toBitVec =
      ShiftRegister.feed crc32Polynomial.toBitVec crc.toBitVec bit := by
  have moved : (crc.toBitVec ^^^ (BitVec.ofBool bit).setWidth 32) >>> 1 = crc.toBitVec >>> 1 := by
    rw [BitVec.ushiftRight_xor_distrib]
    cases bit
    · exact BitVec.xor_zero
    · exact BitVec.xor_zero
  have low : (crc.toBitVec ^^^ (BitVec.ofBool bit).setWidth 32).getLsbD 0 =
      (crc.toBitVec.getLsbD 0 ^^ bit) := by
    rw [BitVec.getLsbD_xor]
    cases bit <;> rfl
  rw [ShiftRegister.feed, ShiftRegister.shift, moved, low, crc32Bit, and_one_beq_one]
  cases crc.toBitVec.getLsbD 0 <;> cases bit <;> rfl

theorem toBitVec_foldl_crc32Bit (bits : List Bool) (crc : UInt32) :
    (bits.foldl crc32Bit crc).toBitVec =
      bits.foldl (ShiftRegister.feed crc32Polynomial.toBitVec) crc.toBitVec := by
  induction bits generalizing crc with
  | nil => rfl
  | cons bit bits ih => rw [List.foldl_cons, ih, toBitVec_crc32Bit]; rfl

/-- The bits of a byte, at the low end of a register. -/
theorem ofBits_bitsOf (byte : UInt8) :
    (ShiftRegister.ofBits (bitsOf byte) : BitVec 32) = byte.toUInt32.toBitVec := by
  apply BitVec.eq_of_getLsbD_eq
  intro i less
  rw [ShiftRegister.getLsbD_ofBits, UInt8.toBitVec_toUInt32, BitVec.getLsbD_setWidth,
    ← BitVec.testBit_toNat, UInt8.toNat_toBitVec]
  congr 1
  by_cases inside : i < 8
  · rw [bitsOf, List.getD_eq_getElem _ _ (by simpa using inside), List.getElem_map,
      List.getElem_range]
  · have small : byte.toNat < 2 ^ i :=
      Nat.lt_of_lt_of_le byte.toNat_lt (Nat.pow_le_pow_right (by decide) (Nat.le_of_not_lt inside))
    rw [bitsOf, List.getD_eq_default _ _ (by simpa using inside), Nat.testBit_lt_two_pow small]

theorem getD_crc32Table {index : UInt32} (small : index.toNat < 256) :
    crc32Table.getD index.toNat 0 = crc32Round^[8] index := by
  rw [crc32Table, List.getD_eq_getElem _ _ (by simpa using small), List.getElem_map,
    List.getElem_range, UInt32.ofNat_toNat]

/-- One step with the table is eight steps with the bits of the byte. -/
theorem crc32Update_eq (crc : UInt32) (byte : UInt8) :
    crc32Update crc byte = (bitsOf byte).foldl crc32Bit crc := by
  have small : ((crc ^^^ byte.toUInt32) &&& 0xFF).toNat < 256 := by
    rw [UInt32.toNat_and]
    exact Nat.lt_of_le_of_lt Nat.and_le_right (by decide)
  have low : ((crc ^^^ byte.toUInt32) &&& 0xFF).toBitVec =
      ((crc ^^^ byte.toUInt32).toBitVec.setWidth 8).setWidth 32 := by
    apply BitVec.eq_of_toNat_eq
    rw [UInt32.toNat_toBitVec, UInt32.toNat_and, BitVec.toNat_setWidth, BitVec.toNat_setWidth,
      UInt32.toNat_toBitVec]
    have mask : (crc ^^^ byte.toUInt32).toNat &&& (0xFF : UInt32).toNat =
        (crc ^^^ byte.toUInt32).toNat % 2 ^ 8 := Nat.and_two_pow_sub_one_eq_mod _ 8
    rw [mask]
    omega
  have high : (crc ^^^ byte.toUInt32).toBitVec >>> 8 = (crc >>> 8).toBitVec := by
    apply BitVec.eq_of_toNat_eq
    have bound := byte.toNat_lt
    have rest : byte.toNat >>> 8 = 0 := by
      rw [Nat.shiftRight_eq_div_pow]
      omega
    have amount : (8 : UInt32).toNat % 32 = 8 := rfl
    rw [BitVec.toNat_ushiftRight, UInt32.toNat_toBitVec, UInt32.toNat_toBitVec, UInt32.toNat_xor,
      UInt32.toNat_shiftRight, amount, Nat.shiftRight_xor_distrib, UInt8.toNat_toUInt32, rest,
      Nat.xor_zero]
  have length : (bitsOf byte).length = 8 := rfl
  apply UInt32.toBitVec_inj.mp
  rw [crc32Update, getD_crc32Table small, UInt32.toBitVec_xor, toBitVec_iterate_crc32Round, low,
    ← high, ← ShiftRegister.iterate_shift_eq, toBitVec_foldl_crc32Bit,
    ShiftRegister.foldl_feed _ (by rw [length]; decide), length, ofBits_bitsOf, UInt32.toBitVec_xor]

/-- The checksum is the one that is computed bit by bit. -/
theorem crc32_bit_by_bit (data : List UInt8) : hdhrCrc32 data = crc32Serial data := by
  have all : ∀ crc, data.foldl crc32Update crc = (data.flatMap bitsOf).foldl crc32Bit crc := by
    induction data with
    | nil => exact fun _ => rfl
    | cons byte data ih =>
        intro crc
        rw [List.foldl_cons, ih, crc32Update_eq, List.flatMap_cons, List.foldl_append]
  rw [hdhrCrc32, crc32Serial, all]

/-- The check value of the CRC-32, of the digits from 1 to 9. -/
example : crc32Serial [0x31, 0x32, 0x33, 0x34, 0x35, 0x36, 0x37, 0x38, 0x39] = 0xCBF43926 := by
  decide +kernel

end HdhrEmu
