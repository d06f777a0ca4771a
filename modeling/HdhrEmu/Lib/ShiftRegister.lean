import Mathlib.Data.BitVec
import Mathlib.Logic.Function.Iterate

/-!
# Shift registers with feedback

A register is shifted to the right, and when a one falls out at its low end a
feedback word is added to it, modulo two.  The shift is linear, so the bits of
a message may be added to the low end one by one or all at once, and the part of
a register that only moves may be split off from the part that is fed back.
-/

namespace ShiftRegister

variable {w : Nat} (feedback : BitVec w)

/-- One shift of the register. -/
def shift (register : BitVec w) : BitVec w :=
  if register.getLsbD 0 then (register >>> 1) ^^^ feedback else register >>> 1

/-- One shift, with a bit of a message added to the low end first. -/
def feed (register : BitVec w) (bit : Bool) : BitVec w :=
  shift feedback (register ^^^ (BitVec.ofBool bit).setWidth w)

/-- A register with the given bits at its low end, the first one lowest. -/
def ofBits : List Bool → BitVec w
  | [] => 0#w
  | bit :: bits => (ofBits bits <<< 1) ^^^ (BitVec.ofBool bit).setWidth w

theorem shift_xor (first second : BitVec w) :
    shift feedback (first ^^^ second) = shift feedback first ^^^ shift feedback second := by
  simp only [shift, BitVec.getLsbD_xor, BitVec.ushiftRight_xor_distrib]
  cases first.getLsbD 0 <;> cases second.getLsbD 0
  · rfl
  · exact BitVec.xor_assoc _ _ _
  · simp only [Bool.true_xor, Bool.not_false, if_true, Bool.false_eq_true, if_false]
    rw [BitVec.xor_assoc, BitVec.xor_comm (second >>> 1), ← BitVec.xor_assoc]
  · -- both are fed back, and the two feedback words cancel
    simp only [Bool.true_xor, Bool.not_true, Bool.false_eq_true, if_false, if_true]
    rw [BitVec.xor_assoc (first >>> 1), ← BitVec.xor_assoc feedback,
      BitVec.xor_comm feedback (second >>> 1), BitVec.xor_assoc (second >>> 1), BitVec.xor_self,
      BitVec.xor_zero]

theorem iterate_shift_xor (count : Nat) (first second : BitVec w) :
    (shift feedback)^[count] (first ^^^ second) =
      (shift feedback)^[count] first ^^^ (shift feedback)^[count] second := by
  induction count generalizing first second with
  | zero => rfl
  | succ count ih => rw [Function.iterate_succ_apply, shift_xor, ih]; rfl

/-- A register whose low bits are zero only moves. -/
theorem iterate_shift_of_low {register : BitVec w} {count : Nat}
    (low : ∀ i < count, register.getLsbD i = false) :
    (shift feedback)^[count] register = register >>> count := by
  induction count with
  | zero => rw [BitVec.ushiftRight_zero]; rfl
  | succ count ih =>
      have moved := ih fun i less => low i (Nat.lt_succ_of_lt less)
      have nothing : (register >>> count).getLsbD 0 = false := by
        rw [BitVec.getLsbD_ushiftRight, Nat.add_zero]
        exact low count (Nat.lt_succ_self count)
      rw [Function.iterate_succ_apply', moved, shift, nothing, BitVec.shiftRight_add]
      rfl

theorem getLsbD_ofBits (bits : List Bool) (i : Nat) :
    (ofBits bits : BitVec w).getLsbD i = (decide (i < w) && bits.getD i false) := by
  induction bits generalizing i with
  | nil => simp [ofBits]
  | cons bit bits ih =>
      rw [ofBits, BitVec.getLsbD_xor, BitVec.getLsbD_shiftLeft, BitVec.getLsbD_setWidth, ih]
      cases i with
      | zero => simp
      | succ i =>
          have inside : i + 1 < w → i < w := fun less => by omega
          by_cases less : i + 1 < w
          · simp [less, inside less]
          · simp [less]

/-- Bits that are not at the high end come down by one shift. -/
theorem shift_ofBits {bits : List Bool} (fits : bits.length < w) :
    shift feedback (ofBits bits <<< 1) = ofBits bits := by
  have low : (ofBits bits <<< 1 : BitVec w).getLsbD 0 = false := by
    rw [BitVec.getLsbD_shiftLeft]
    simp
  rw [shift, low, if_neg Bool.false_ne_true]
  apply BitVec.eq_of_getLsbD_eq
  intro i less
  rw [BitVec.getLsbD_ushiftRight, BitVec.getLsbD_shiftLeft, getLsbD_ofBits, getLsbD_ofBits]
  by_cases top : 1 + i < w
  · have inside : 1 + i - 1 = i := by omega
    simp [top, less, inside]
  · have last : bits.length ≤ i := by omega
    simp [top, List.getElem?_eq_none last]

/-- Feeding bits one by one is adding them all, and shifting as often. -/
theorem foldl_feed {bits : List Bool} (fits : bits.length ≤ w) (register : BitVec w) :
    bits.foldl (feed feedback) register =
      (shift feedback)^[bits.length] (register ^^^ ofBits bits) := by
  induction bits generalizing register with
  | nil => rw [ofBits, BitVec.xor_zero]; rfl
  | cons bit bits ih =>
      rw [List.length_cons] at fits ⊢
      calc
        bits.foldl (feed feedback) (feed feedback register bit) =
            (shift feedback)^[bits.length] (feed feedback register bit ^^^ ofBits bits) :=
          ih (Nat.le_of_succ_le fits) _
        _ = (shift feedback)^[bits.length] (shift feedback
              (register ^^^ (BitVec.ofBool bit).setWidth w ^^^ ofBits bits <<< 1)) := by
          rw [shift_xor feedback _ (ofBits bits <<< 1), shift_ofBits feedback fits]
          rfl
        _ = (shift feedback)^[bits.length + 1] (register ^^^ ofBits (bit :: bits)) := by
          rw [Function.iterate_succ_apply, ofBits, BitVec.xor_assoc,
            BitVec.xor_comm (BitVec.setWidth w _)]

/-- Shifting a register is shifting its low part, and moving the rest. -/
theorem iterate_shift_eq (count : Nat) (register : BitVec w) :
    (shift feedback)^[count] register =
      (shift feedback)^[count] ((register.setWidth count).setWidth w) ^^^ (register >>> count) := by
  have parts : register = (register.setWidth count).setWidth w ^^^ (register >>> count <<< count) := by
    apply BitVec.eq_of_getLsbD_eq
    intro i less
    rw [BitVec.getLsbD_xor, BitVec.getLsbD_setWidth, BitVec.getLsbD_setWidth,
      BitVec.getLsbD_shiftLeft, BitVec.getLsbD_ushiftRight]
    by_cases low : i < count
    · simp [less, low]
    · simp [less, low, Nat.add_sub_cancel' (Nat.le_of_not_lt low)]
  have high : (shift feedback)^[count] (register >>> count <<< count) = register >>> count := by
    rw [iterate_shift_of_low]
    · apply BitVec.eq_of_getLsbD_eq
      intro i less
      rw [BitVec.getLsbD_ushiftRight, BitVec.getLsbD_shiftLeft, BitVec.getLsbD_ushiftRight]
      by_cases inside : count + i < w
      · simp [inside]
      · simp [inside, BitVec.getLsbD_of_ge register (count + i) (Nat.le_of_not_lt inside)]
    · intro i less
      rw [BitVec.getLsbD_shiftLeft]
      simp [less]
  conv_lhs => rw [parts, iterate_shift_xor, high]

/-- The feedback word has its highest bit set, so that a shift can be undone. -/
def Reversible : Prop :=
  feedback.getLsbD (w - 1) = true

variable {feedback}

theorem eq_zero_of_shift (reversible : Reversible feedback) {register : BitVec w}
    (nothing : shift feedback register = 0#w) : register = 0#w := by
  rw [shift] at nothing
  split at nothing
  · rename_i out
    -- the highest bit has just been fed back
    have wide : 0 < w := by
      by_contra narrow
      rw [BitVec.getLsbD_of_ge register 0 (by omega)] at out
      cases out
    have highest := congrArg (fun bits => bits.getLsbD (w - 1)) nothing
    have beyond : register.getLsbD (1 + (w - 1)) = false :=
      BitVec.getLsbD_of_ge register _ (by omega)
    simp only [BitVec.getLsbD_xor, BitVec.getLsbD_ushiftRight, beyond, Bool.false_xor,
      BitVec.getLsbD_zero] at highest
    cases highest.symm.trans reversible
  · rename_i kept
    apply BitVec.eq_of_getLsbD_eq
    intro i _
    cases i with
    | zero => simpa using kept
    | succ i =>
        have bit := congrArg (fun bits => bits.getLsbD i) nothing
        simpa [BitVec.getLsbD_ushiftRight, Nat.add_comm] using bit

theorem shift_injective (reversible : Reversible feedback) :
    Function.Injective (shift feedback) := by
  intro first second same
  have nothing : shift feedback (first ^^^ second) = 0#w := by
    rw [shift_xor, same, BitVec.xor_self]
  exact BitVec.xor_eq_zero_iff.mp (eq_zero_of_shift reversible nothing)

theorem feed_injective (reversible : Reversible feedback) (bit : Bool) :
    Function.Injective fun register => feed feedback register bit := by
  intro first second same
  exact (BitVec.xor_left_inj _).mp (shift_injective reversible same)

/-- What follows in both messages does not make two registers the same. -/
theorem foldl_feed_injective (reversible : Reversible feedback) (bits : List Bool) :
    Function.Injective fun register => bits.foldl (feed feedback) register := by
  induction bits with
  | nil => exact fun _ _ same => same
  | cons bit bits ih =>
      intro first second same
      exact feed_injective reversible bit (ih same)

theorem ofBits_injective {first second : List Bool} (lengths : first.length = second.length)
    (fits : first.length ≤ w) (same : (ofBits first : BitVec w) = ofBits second) :
    first = second := by
  apply List.ext_getElem lengths
  intro i inside inside'
  have bit := congrArg (fun register : BitVec w => register.getLsbD i) same
  rw [getLsbD_ofBits, getLsbD_ofBits] at bit
  simpa [Nat.lt_of_lt_of_le inside fits, inside, inside', List.getD] using bit

/-- What was sent and what was received differ inside one stretch of bits. -/
structure Burst (width : Nat) (sent received : List Bool) where
  front : List Bool
  was : List Bool
  became : List Bool
  back : List Bool
  sent_eq : sent = front ++ was ++ back
  received_eq : received = front ++ became ++ back
  length_eq : became.length = was.length
  length_le : was.length ≤ width

/-- A burst that is not longer than the register is noticed. -/
theorem eq_of_burst (reversible : Reversible feedback) (register : BitVec w)
    {sent received : List Bool} (burst : Burst w sent received)
    (same : sent.foldl (feed feedback) register = received.foldl (feed feedback) register) :
    sent = received := by
  obtain ⟨front, was, became, back, rfl, rfl, lengths, short⟩ := burst
  simp only [List.foldl_append] at same
  have before := foldl_feed_injective reversible back same
  have short' : became.length ≤ w := by rwa [lengths]
  rw [foldl_feed feedback short, foldl_feed feedback short', lengths] at before
  have added := (shift_injective reversible).iterate was.length before
  have equal : was = became :=
    ofBits_injective lengths.symm short ((BitVec.xor_right_inj _).mp added)
  rw [equal]

end ShiftRegister
