import HdhrEmu.Lib.CheckDigit
import HdhrEmu.Lib.IntegerText
import Mathlib.Data.UInt

/-!
# Device ids

A device id is a number of eight hexadecimal digits with a check digit: the
first, third, fifth and seventh digit go through a table, and then all of them
must cancel out bit by bit.  The generator draws six digits from its seed,
writes a `1` in front and solves for the last one.
-/

namespace HdhrEmu

open CString

/-- `nibble_lut`. -/
def nibbleLut : List UInt8 :=
  [0xA, 0x5, 0xF, 0x6, 0x7, 0xC, 0x1, 0xB,
    0x9, 0x2, 0x8, 0xD, 0x4, 0x3, 0xE, 0x0]

/-- `(id >> shift) & 0xF`. -/
def nibbleAt (id shift : UInt32) : UInt32 :=
  (id >>> shift) &&& 0xF

/-- `nibble_lut[index]`. -/
def lutAt (index : Nat) : UInt8 :=
  nibbleLut.getD index 0

def hdhrDeviceIdIsValid (id : UInt32) : Bool :=
  let checksum : UInt8 := 0
  let checksum := checksum ^^^ lutAt (nibbleAt id 28).toNat
  let checksum := checksum ^^^ (nibbleAt id 24).toUInt8
  let checksum := checksum ^^^ lutAt (nibbleAt id 20).toNat
  let checksum := checksum ^^^ (nibbleAt id 16).toUInt8
  let checksum := checksum ^^^ lutAt (nibbleAt id 12).toNat
  let checksum := checksum ^^^ (nibbleAt id 8).toUInt8
  let checksum := checksum ^^^ lutAt (nibbleAt id 4).toNat
  let checksum := checksum ^^^ (nibbleAt id 0).toUInt8
  checksum == 0

def hdhrDeviceIdGenerate (seed24 : UInt32) : UInt32 :=
  let nib7 : UInt8 := 0x1
  let nib6 := (nibbleAt seed24 20).toUInt8
  let nib5 := (nibbleAt seed24 16).toUInt8
  let nib4 := (nibbleAt seed24 12).toUInt8
  let nib3 := (nibbleAt seed24 8).toUInt8
  let nib2 := (nibbleAt seed24 4).toUInt8
  let nib1 := (nibbleAt seed24 0).toUInt8
  let nib0 := lutAt nib7.toNat ^^^ nib6 ^^^ lutAt nib5.toNat ^^^ nib4 ^^^
    lutAt nib3.toNat ^^^ nib2 ^^^ lutAt nib1.toNat
  (nib7.toUInt32 <<< 28) ||| (nib6.toUInt32 <<< 24) ||| (nib5.toUInt32 <<< 20) |||
    (nib4.toUInt32 <<< 16) ||| (nib3.toUInt32 <<< 12) ||| (nib2.toUInt32 <<< 8) |||
    (nib1.toUInt32 <<< 4) ||| nib0.toUInt32

/-- A hexadecimal digit; digits are added bit by bit, without a carry. -/
@[ext]
structure Nibble where
  bits : BitVec 4
  deriving DecidableEq, Repr

namespace Nibble

instance : Zero Nibble := ⟨⟨0⟩⟩

instance : Add Nibble := ⟨fun first second => ⟨first.bits ^^^ second.bits⟩⟩

instance : Neg Nibble := ⟨fun digit => digit⟩

@[simp]
theorem bits_zero : (0 : Nibble).bits = 0 :=
  rfl

@[simp]
theorem bits_add (first second : Nibble) : (first + second).bits = first.bits ^^^ second.bits :=
  rfl

@[simp]
theorem neg_eq (digit : Nibble) : -digit = digit :=
  rfl

instance : AddCommGroup Nibble where
  add_assoc _ _ _ := Nibble.ext (BitVec.xor_assoc _ _ _)
  zero_add _ := Nibble.ext BitVec.zero_xor
  add_zero _ := Nibble.ext BitVec.xor_zero
  add_comm _ _ := Nibble.ext (BitVec.xor_comm _ _)
  neg_add_cancel _ := Nibble.ext BitVec.xor_self
  nsmul := nsmulRec
  zsmul := zsmulRec

/-- The digit as the code holds it. -/
def toUInt8 (digit : Nibble) : UInt8 :=
  ⟨digit.bits.setWidth 8⟩

/-- The digit that the table gives for a digit. -/
def weigh (digit : Nibble) : Nibble :=
  ⟨(lutAt digit.bits.toNat).toBitVec.setWidth 4⟩

theorem separates_weigh : CheckDigit.Separates weigh where
  injective := by
    have apart : ∀ first second : BitVec 4, weigh ⟨first⟩ = weigh ⟨second⟩ → first = second := by
      decide
    intro first second same
    exact Nibble.ext (apart _ _ same)
  differences := by
    have apart : ∀ first second : BitVec 4,
        (weigh ⟨first⟩).bits ^^^ first = (weigh ⟨second⟩).bits ^^^ second → first = second := by
      decide
    intro first second same
    apply Nibble.ext
    apply apart
    have bits := congrArg Nibble.bits same
    simpa only [sub_eq_add_neg, neg_eq, bits_add] using bits

@[simp]
theorem toNat_toUInt8 (digit : Nibble) : digit.toUInt8.toNat = digit.bits.toNat := by
  have bound := digit.bits.isLt
  show (digit.bits.setWidth 8).toNat = _
  rw [BitVec.toNat_setWidth]
  omega

theorem toUInt8_add (first second : Nibble) :
    (first + second).toUInt8 = first.toUInt8 ^^^ second.toUInt8 := by
  apply UInt8.toBitVec_inj.mp
  show (first.bits ^^^ second.bits).setWidth 8 = first.bits.setWidth 8 ^^^ second.bits.setWidth 8
  exact BitVec.setWidth_xor

/-- The table holds digits only. -/
theorem lutAt_eq_toUInt8 (digit : Nibble) : lutAt digit.bits.toNat = (weigh digit).toUInt8 := by
  have all : ∀ bits : BitVec 4, lutAt bits.toNat = (weigh ⟨bits⟩).toUInt8 := by
    decide
  exact all digit.bits

theorem lutAt_toUInt8 (digit : Nibble) : lutAt digit.toUInt8.toNat = (weigh digit).toUInt8 := by
  rw [toNat_toUInt8, lutAt_eq_toUInt8]

theorem toUInt8_eq_zero_iff (digit : Nibble) : digit.toUInt8 = 0 ↔ digit = 0 := by
  have all : ∀ bits : BitVec 4, toUInt8 ⟨bits⟩ = 0 ↔ bits = 0 := by
    decide
  rw [all digit.bits, Nibble.ext_iff, bits_zero]

/-- The value of a digit. -/
def value (digit : Nibble) : Nat :=
  digit.bits.toNat

theorem value_lt (digit : Nibble) : digit.value < 16 :=
  digit.bits.isLt

theorem value_injective : Function.Injective value :=
  fun _ _ same => Nibble.ext (BitVec.eq_of_toNat_eq same)

end Nibble

/-- The digit of an id that starts at a bit. -/
def digitAt (id shift : UInt32) : Nibble :=
  ⟨BitVec.ofNat 4 (nibbleAt id shift).toNat⟩

/-- The eight digits of an id. -/
def idDigits (id : UInt32) : List Nibble :=
  [28, 24, 20, 16, 12, 8, 4, 0].map (digitAt id)

/-- The number with some digits. -/
def idOf (digits : List Nibble) : Nat :=
  positional 16 (digits.map Nibble.value)

/-- The digits that the generator takes from its seed, after its own first one. -/
def seedDigits (seed24 : UInt32) : List Nibble :=
  ⟨1⟩ :: [20, 16, 12, 8, 4, 0].map (digitAt seed24)

theorem toNat_nibbleAt (id : UInt32) {shift : UInt32} (small : shift.toNat < 32) :
    (nibbleAt id shift).toNat = id.toNat / 2 ^ shift.toNat % 16 := by
  rw [nibbleAt, UInt32.toNat_and, UInt32.toNat_shiftRight, Nat.mod_eq_of_lt small,
    Nat.shiftRight_eq_div_pow]
  exact Nat.and_two_pow_sub_one_eq_mod _ 4

theorem value_digitAt (id : UInt32) {shift : UInt32} (small : shift.toNat < 32) :
    (digitAt id shift).value = id.toNat / 2 ^ shift.toNat % 16 := by
  rw [Nibble.value, digitAt, BitVec.toNat_ofNat, toNat_nibbleAt id small]
  exact Nat.mod_mod _ _

theorem toUInt8_nibbleAt (id : UInt32) {shift : UInt32} (small : shift.toNat < 32) :
    (nibbleAt id shift).toUInt8 = (digitAt id shift).toUInt8 := by
  apply UInt8.toNat_inj.mp
  have value := value_digitAt id small
  rw [Nibble.value] at value
  rw [UInt32.toNat_toUInt8, Nibble.toNat_toUInt8, value, toNat_nibbleAt id small]
  omega

theorem lutAt_nibbleAt (id : UInt32) {shift : UInt32} (small : shift.toNat < 32) :
    lutAt (nibbleAt id shift).toNat = (digitAt id shift).weigh.toUInt8 := by
  have value := value_digitAt id small
  rw [← Nibble.lutAt_eq_toUInt8, ← Nibble.value, value, toNat_nibbleAt id small]

/-- The digits are those that the number is written with. -/
theorem map_value_idDigits (id : UInt32) :
    (idDigits id).map Nibble.value = fixedDigits 16 8 id.toNat := by
  simp only [idDigits, List.map_cons, List.map_nil]
  rw [value_digitAt id (by decide), value_digitAt id (by decide), value_digitAt id (by decide),
    value_digitAt id (by decide), value_digitAt id (by decide), value_digitAt id (by decide),
    value_digitAt id (by decide), value_digitAt id (by decide)]
  simp [fixedDigits, Nat.div_div_eq_div_mul]

theorem idOf_idDigits (id : UInt32) : idOf (idDigits id) = id.toNat := by
  rw [idOf, map_value_idDigits, positional_fixedDigits]
  exact Nat.mod_eq_of_lt id.toNat_lt

theorem idDigits_of_toNat {id : UInt32} {digits : List Nibble} (eight : digits.length = 8)
    (same : id.toNat = idOf digits) : idDigits id = digits := by
  apply List.map_injective_iff.mpr Nibble.value_injective
  have written : ∀ digit ∈ digits.map Nibble.value, digit < 16 := by
    simp only [List.forall_mem_map]
    exact fun digit _ => digit.value_lt
  have digits_ := fixedDigits_positional written
  rw [List.length_map, eight] at digits_
  rw [map_value_idDigits, same, idOf, digits_]

theorem idDigits_injective : Function.Injective idDigits := by
  intro first second same
  apply UInt32.toNat_inj.mp
  rw [← idOf_idDigits first, ← idOf_idDigits second, same]

/-- The code checks the digits of an id. -/
theorem hdhrDeviceIdIsValid_iff (id : UInt32) :
    hdhrDeviceIdIsValid id = true ↔ CheckDigit.Valid Nibble.weigh (idDigits id) := by
  rw [hdhrDeviceIdIsValid, lutAt_nibbleAt id (by decide), lutAt_nibbleAt id (by decide),
    lutAt_nibbleAt id (by decide), lutAt_nibbleAt id (by decide), toUInt8_nibbleAt id (by decide),
    toUInt8_nibbleAt id (by decide), toUInt8_nibbleAt id (by decide),
    toUInt8_nibbleAt id (by decide)]
  simp only [← Nibble.toUInt8_add, UInt8.zero_xor, beq_iff_eq, Nibble.toUInt8_eq_zero_iff]
  simp only [CheckDigit.Valid, idDigits, List.map_cons, List.map_nil, CheckDigit.checksum,
    add_zero, add_assoc]

/-- One more digit below the others. -/
theorem toNat_digit_or (digit : Nibble) {low shift : UInt32} (place : shift.toNat ≤ 28)
    (small : low.toNat < 2 ^ shift.toNat) :
    ((digit.toUInt8.toUInt32 <<< shift) ||| low).toNat =
      2 ^ shift.toNat * digit.value + low.toNat := by
  have digit_ := digit.value_lt
  have fits : digit.value * 2 ^ shift.toNat < 2 ^ 32 := by
    calc digit.value * 2 ^ shift.toNat < 16 * 2 ^ shift.toNat :=
          Nat.mul_lt_mul_of_pos_right digit_ (Nat.two_pow_pos _)
      _ ≤ 16 * 2 ^ 28 := Nat.mul_le_mul_left _ (Nat.pow_le_pow_right (by decide) place)
      _ = 2 ^ 32 := by norm_num
  rw [UInt32.toNat_or, UInt32.toNat_shiftLeft, UInt8.toNat_toUInt32, Nibble.toNat_toUInt8,
    Nat.mod_eq_of_lt (show shift.toNat < 32 by omega), Nat.shiftLeft_eq, ← Nibble.value,
    Nat.mod_eq_of_lt fits, Nat.mul_comm, Nat.two_pow_add_eq_or_of_lt small]

/-- Digits shifted to their places. -/
def packed : List Nibble → UInt32
  | [] => 0
  | digit :: digits =>
      (digit.toUInt8.toUInt32 <<< UInt32.ofNat (4 * digits.length)) ||| packed digits

theorem idOf_cons (digit : Nibble) (digits : List Nibble) :
    idOf (digit :: digits) = 2 ^ (4 * digits.length) * digit.value + idOf digits := by
  rw [idOf, List.map_cons, positional_cons, List.length_map, Nat.pow_mul]
  rfl

theorem idOf_lt (digits : List Nibble) : idOf digits < 2 ^ (4 * digits.length) := by
  have bound : idOf digits < 16 ^ (digits.map Nibble.value).length := by
    apply positional_lt
    simp only [List.forall_mem_map]
    exact fun digit _ => digit.value_lt
  rwa [List.length_map, show 16 = 2 ^ 4 from rfl, ← Nat.pow_mul] at bound

theorem toNat_packed {digits : List Nibble} (short : digits.length ≤ 8) :
    (packed digits).toNat = idOf digits := by
  induction digits with
  | nil => rfl
  | cons digit digits ih =>
      rw [List.length_cons] at short
      have others := ih (Nat.le_of_succ_le short)
      have place : (UInt32.ofNat (4 * digits.length)).toNat = 4 * digits.length := by
        rw [UInt32.toNat_ofNat', Nat.mod_eq_of_lt (by omega)]
      rw [packed, toNat_digit_or digit (by omega), others, place, idOf_cons]
      rw [others, place]
      exact idOf_lt digits

/-- The last digit that the generator solves for. -/
def checkDigit (seed24 : UInt32) : Nibble :=
  CheckDigit.checksum Nibble.weigh true (seedDigits seed24)

theorem hdhrDeviceIdGenerate_eq (seed24 : UInt32) :
    hdhrDeviceIdGenerate seed24 = packed (seedDigits seed24 ++ [checkDigit seed24]) := by
  have one : (1 : UInt8) = Nibble.toUInt8 ⟨1⟩ := by decide
  rw [hdhrDeviceIdGenerate, one, toUInt8_nibbleAt seed24 (by decide),
    toUInt8_nibbleAt seed24 (by decide), toUInt8_nibbleAt seed24 (by decide),
    toUInt8_nibbleAt seed24 (by decide), toUInt8_nibbleAt seed24 (by decide),
    toUInt8_nibbleAt seed24 (by decide)]
  simp only [Nibble.lutAt_toUInt8, ← Nibble.toUInt8_add]
  have check : checkDigit seed24 = Nibble.weigh ⟨1⟩ + digitAt seed24 20 +
      (digitAt seed24 16).weigh + digitAt seed24 12 + (digitAt seed24 8).weigh +
      digitAt seed24 4 + (digitAt seed24 0).weigh := by
    simp only [checkDigit, seedDigits, List.map_cons, List.map_nil, CheckDigit.checksum,
      add_zero, add_assoc]
  rw [← check]
  simp only [seedDigits, List.map_cons, List.map_nil, List.cons_append, List.nil_append, packed,
    List.length_cons, List.length_nil, UInt32.or_assoc]
  simp

/-- The digits of a generated id. -/
theorem idDigits_hdhrDeviceIdGenerate (seed24 : UInt32) :
    idDigits (hdhrDeviceIdGenerate seed24) = seedDigits seed24 ++ [checkDigit seed24] := by
  apply idDigits_of_toNat
  · rfl
  · rw [hdhrDeviceIdGenerate_eq, toNat_packed]
    exact Nat.le_refl 8

/-- The digit that makes an id valid is the one that is solved for. -/
theorem valid_seedDigits_iff (seed24 : UInt32) (digit : Nibble) :
    CheckDigit.Valid Nibble.weigh (seedDigits seed24 ++ [digit]) ↔ digit = checkDigit seed24 := by
  have seven : (seedDigits seed24).length = 7 := rfl
  have odd : (seedDigits seed24).length.bodd = true := by
    rw [seven]
    decide
  rw [CheckDigit.valid_append_singleton Nibble.weigh odd, Nibble.neg_eq, checkDigit]

/-- What is generated passes the check. -/
theorem hdhrDeviceIdIsValid_generate (seed24 : UInt32) :
    hdhrDeviceIdIsValid (hdhrDeviceIdGenerate seed24) = true := by
  rw [hdhrDeviceIdIsValid_iff, idDigits_hdhrDeviceIdGenerate]
  exact (valid_seedDigits_iff seed24 _).mpr rfl

/-- A slip in the digits of a valid id makes it invalid. -/
theorem not_isValid_of_slip {id other : UInt32} (valid : hdhrDeviceIdIsValid id = true)
    (slip : CheckDigit.Slip (idDigits id) (idDigits other)) :
    hdhrDeviceIdIsValid other = false := by
  rw [← Bool.not_eq_true, hdhrDeviceIdIsValid_iff]
  rw [hdhrDeviceIdIsValid_iff] at valid
  exact CheckDigit.not_valid_of_slip Nibble.separates_weigh valid slip

theorem digitAt_eq_iff {first second shift other : UInt32} (small : shift.toNat < 32)
    (small' : other.toNat < 32) :
    digitAt first shift = digitAt second other ↔
      first.toNat / 2 ^ shift.toNat % 16 = second.toNat / 2 ^ other.toNat % 16 := by
  rw [← Nibble.value_injective.eq_iff, value_digitAt first small, value_digitAt second small']

/-- Seeds with the same 24 bits give the same digits, and no others do. -/
theorem seedDigits_eq_iff (first second : UInt32) :
    seedDigits first = seedDigits second ↔ first.toNat % 2 ^ 24 = second.toNat % 2 ^ 24 := by
  simp only [seedDigits, List.map_cons, List.map_nil, List.cons.injEq, true_and, and_true]
  rw [digitAt_eq_iff (by decide) (by decide), digitAt_eq_iff (by decide) (by decide),
    digitAt_eq_iff (by decide) (by decide), digitAt_eq_iff (by decide) (by decide),
    digitAt_eq_iff (by decide) (by decide), digitAt_eq_iff (by decide) (by decide)]
  simp only [UInt32.reduceToNat]
  omega

/-- Different seeds of 24 bits give different ids. -/
theorem hdhrDeviceIdGenerate_eq_iff (first second : UInt32) :
    hdhrDeviceIdGenerate first = hdhrDeviceIdGenerate second ↔
      first.toNat % 2 ^ 24 = second.toNat % 2 ^ 24 := by
  rw [← idDigits_injective.eq_iff, idDigits_hdhrDeviceIdGenerate, idDigits_hdhrDeviceIdGenerate,
    ← seedDigits_eq_iff]
  constructor
  · intro same
    exact (List.append_inj same rfl).1
  · intro same
    rw [checkDigit, checkDigit, same]

/-- The generator reaches every valid id that begins with its own first digit. -/
theorem exists_hdhrDeviceIdGenerate_iff (id : UInt32) :
    (∃ seed24, hdhrDeviceIdGenerate seed24 = id) ↔
      hdhrDeviceIdIsValid id = true ∧ digitAt id 28 = ⟨1⟩ := by
  constructor
  · rintro ⟨seed24, rfl⟩
    have digits := idDigits_hdhrDeviceIdGenerate seed24
    exact ⟨hdhrDeviceIdIsValid_generate seed24, (List.cons.inj digits).1⟩
  · rintro ⟨valid, first⟩
    use id >>> 4
    have digits : idDigits id = seedDigits (id >>> 4) ++ [digitAt id 0] := by
      have seed : (id >>> 4).toNat = id.toNat / 16 := by
        rw [UInt32.toNat_shiftRight, Nat.shiftRight_eq_div_pow]
        rfl
      simp only [idDigits, seedDigits, List.map_cons, List.map_nil, List.cons_append,
        List.nil_append, List.cons.injEq, and_true]
      rw [digitAt_eq_iff (by decide) (by decide), digitAt_eq_iff (by decide) (by decide),
        digitAt_eq_iff (by decide) (by decide), digitAt_eq_iff (by decide) (by decide),
        digitAt_eq_iff (by decide) (by decide), digitAt_eq_iff (by decide) (by decide), seed]
      simp only [first, UInt32.reduceToNat, true_and]
      omega
    rw [hdhrDeviceIdIsValid_iff, digits, valid_seedDigits_iff] at valid
    apply idDigits_injective
    rw [idDigits_hdhrDeviceIdGenerate, digits, valid]

end HdhrEmu
