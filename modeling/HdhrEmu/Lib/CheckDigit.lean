import Mathlib.Algebra.Group.Basic
import Mathlib.Algebra.Group.Defs
import Mathlib.Data.Nat.Bits
import Mathlib.Tactic.Abel

/-!
# Check digits with two weights

A number carries a check digit: the digits at every other place are weighed,
and together with the remaining ones they add up to zero in a commutative
group.  If the weighing loses nothing, and neither does its difference to the
identity, then such a number does not survive a slip of the pen: one digit
written wrong, or two neighbouring digits written in the wrong order.
-/

namespace CheckDigit

variable {D : Type*} [AddCommGroup D]

/-- The sum of the digits; the first one is weighed if `weighed` says so. -/
def checksum (weigh : D → D) : Bool → List D → D
  | _, [] => 0
  | true, digit :: digits => weigh digit + checksum weigh false digits
  | false, digit :: digits => digit + checksum weigh true digits

/-- A number with the right check digit. -/
def Valid (weigh : D → D) (digits : List D) : Prop :=
  checksum weigh true digits = 0

/-- One digit is wrong, or two neighbours have changed places. -/
inductive Slip : List D → List D → Prop
  | change {front back : List D} {digit wrong : D} (differs : digit ≠ wrong) :
      Slip (front ++ digit :: back) (front ++ wrong :: back)
  | swap {front back : List D} {first second : D} (differs : first ≠ second) :
      Slip (front ++ first :: second :: back) (front ++ second :: first :: back)

/-- The weights tell digits and the order of digits apart. -/
structure Separates (weigh : D → D) : Prop where
  injective : Function.Injective weigh
  differences : Function.Injective fun digit => weigh digit - digit

section Sums

variable (weigh : D → D)

/-- The sum of what stands in front and of what follows. -/
theorem checksum_append (weighed : Bool) (front back : List D) :
    checksum weigh weighed (front ++ back) = checksum weigh weighed front +
      checksum weigh (weighed ^^ front.length.bodd) back := by
  induction front generalizing weighed with
  | nil => simp [checksum]
  | cons digit front ih => cases weighed <;> simp [checksum, ih, add_assoc]

/-- The last of an even number of digits is determined by the others. -/
theorem valid_append_singleton {front : List D} (odd : front.length.bodd = true) (digit : D) :
    Valid weigh (front ++ [digit]) ↔ digit = -checksum weigh true front := by
  rw [Valid, checksum_append, odd]
  simp only [Bool.xor_true, Bool.not_true, checksum, add_zero]
  constructor
  · intro zero
    exact (neg_eq_of_add_eq_zero_right zero).symm
  · rintro rfl
    exact add_neg_cancel _

end Sums

variable {weigh : D → D}

/-- A slip changes the sum. -/
theorem checksum_ne_of_slip (separates : Separates weigh) {digits others : List D}
    (slip : Slip digits others) (weighed : Bool) :
    checksum weigh weighed digits ≠ checksum weigh weighed others := by
  intro same
  cases slip with
  | change differs =>
      rw [checksum_append, checksum_append, add_right_inj] at same
      revert same
      cases weighed ^^ _ with
      | true => exact fun same => differs (separates.injective (add_right_cancel same))
      | false => exact fun same => differs (add_right_cancel same)
  | @swap front back first second differs =>
      rw [checksum_append, checksum_append, add_right_inj] at same
      revert same
      cases weighed ^^ _ with
      | true =>
          simp only [checksum, ← add_assoc, add_left_inj]
          intro same
          apply differs
          apply separates.differences
          show weigh first - first = weigh second - second
          rw [sub_eq_sub_iff_add_eq_add, same]
      | false =>
          simp only [checksum, ← add_assoc, add_left_inj]
          intro same
          apply differs
          apply separates.differences
          show weigh first - first = weigh second - second
          rw [sub_eq_sub_iff_add_eq_add, add_comm (weigh first), add_comm (weigh second)]
          exact same.symm

theorem not_valid_of_slip (separates : Separates weigh) {digits others : List D}
    (valid : Valid weigh digits) (slip : Slip digits others) : ¬ Valid weigh others := by
  intro other
  exact checksum_ne_of_slip separates slip true (valid.trans other.symm)

end CheckDigit
