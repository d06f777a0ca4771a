import HdhrEmu.Lib.CString
import Mathlib.Data.List.Induction
import Mathlib.Tactic.Ring

/-!
# Numerals that say their base

With base zero, `strtoul` takes the base from the numeral itself: sixteen
after `0x`, eight after any other `0`, ten otherwise.  A number written with a
fixed number of hexadecimal digits is read back as it was.
-/

namespace CString

/-- The digit that a character stands for, of 36. -/
def digitValue? (character : Char) : Option Nat :=
  if character.isDigit then some (character.toNat - 48)
  else if character.isUpper then some (character.toNat - 55)
  else if character.isLower then some (character.toNat - 87)
  else none

/-- The digits of some base at the front of a text. -/
def leadingDigits (base : Nat) : CStr → List Nat
  | [] => []
  | character :: rest =>
      match (digitValue? character).filter (· < base) with
      | some digit => digit :: leadingDigits base rest
      | none => []

/-- The number that digits write, the first one being the highest. -/
def positional (base : Nat) (digits : List Nat) : Nat :=
  digits.foldl (fun number digit => base * number + digit) 0

/-- The base of a numeral without a sign, and its digits. -/
def literal : CStr → Nat × CStr
  | '0' :: mark :: character :: rest =>
      if (mark = 'x' ∨ mark = 'X') ∧ ((digitValue? character).filter (· < 16)).isSome then
        (16, character :: rest)
      else (8, '0' :: mark :: character :: rest)
  | '0' :: rest => (8, '0' :: rest)
  | text => (10, text)

/-- The sign in front of a numeral. -/
def splitSign : CStr → Bool × CStr
  | '-' :: rest => (true, rest)
  | '+' :: rest => (false, rest)
  | rest => (false, rest)

/-- What a numeral without a sign amounts to. -/
def magnitude (unsigned : CStr) : Nat :=
  positional (literal unsigned).1 (leadingDigits (literal unsigned).1 (literal unsigned).2)

/-- `strtoul(text, NULL, 0)` for a 64-bit `unsigned long`. -/
def strtoulAnyBase (text : CStr) : Nat :=
  let (negative, unsigned) := splitSign (text.dropWhile isSpace)
  if 2 ^ 64 ≤ magnitude unsigned then 2 ^ 64 - 1
  else if negative then (2 ^ 64 - magnitude unsigned) % 2 ^ 64
  else magnitude unsigned

/-- The last digits of a number, as many as asked for. -/
def fixedDigits (base : Nat) : Nat → Nat → List Nat
  | 0, _ => []
  | width + 1, n => fixedDigits base width (n / base) ++ [n % base]

/-- The character for a digit, in capitals. -/
def capitalDigit (digit : Nat) : Char :=
  if digit < 10 then Char.ofNat (48 + digit) else Char.ofNat (55 + digit)

theorem positional_append_singleton (base : Nat) (digits : List Nat) (digit : Nat) :
    positional base (digits ++ [digit]) = base * positional base digits + digit := by
  rw [positional, List.foldl_append]
  rfl

theorem positional_cons (base digit : Nat) (digits : List Nat) :
    positional base (digit :: digits) =
      base ^ digits.length * digit + positional base digits := by
  induction digits using List.reverseRecOn with
  | nil => simp [positional]
  | append_singleton digits last ih =>
      rw [← List.cons_append, positional_append_singleton, positional_append_singleton, ih,
        List.length_append, List.length_singleton, Nat.pow_succ]
      ring

/-- A number is what its digits write. -/
theorem positional_fixedDigits (base width n : Nat) :
    positional base (fixedDigits base width n) = n % base ^ width := by
  induction width generalizing n with
  | zero => rw [Nat.pow_zero, Nat.mod_one]; rfl
  | succ width ih =>
      rw [fixedDigits, positional_append_singleton, ih, Nat.pow_succ, Nat.mul_comm (base ^ width),
        Nat.mod_mul, Nat.add_comm]

/-- Digits are those of the number that they write. -/
theorem fixedDigits_positional {base : Nat} {digits : List Nat}
    (small : ∀ digit ∈ digits, digit < base) :
    fixedDigits base digits.length (positional base digits) = digits := by
  induction digits using List.reverseRecOn with
  | nil => rfl
  | append_singleton digits digit ih =>
      rw [List.forall_mem_append, List.forall_mem_singleton] at small
      have positive : 0 < base := Nat.zero_lt_of_lt small.2
      rw [List.length_append, List.length_singleton, fixedDigits, positional_append_singleton,
        Nat.mul_add_div positive, Nat.div_eq_of_lt small.2, Nat.add_zero, ih small.1,
        Nat.mul_add_mod, Nat.mod_eq_of_lt small.2]

theorem positional_lt {base : Nat} {digits : List Nat}
    (small : ∀ digit ∈ digits, digit < base) : positional base digits < base ^ digits.length := by
  induction digits using List.reverseRecOn with
  | nil => exact Nat.one_pos
  | append_singleton digits digit ih =>
      rw [List.forall_mem_append, List.forall_mem_singleton] at small
      have high := ih small.1
      rw [positional_append_singleton, List.length_append, List.length_singleton, Nat.pow_succ]
      calc base * positional base digits + digit
          < base * positional base digits + base := Nat.add_lt_add_left small.2 _
        _ = base * (positional base digits + 1) := by ring
        _ ≤ base * base ^ digits.length := Nat.mul_le_mul_left _ high
        _ = base ^ digits.length * base := Nat.mul_comm _ _

theorem digitValue?_capitalDigit {digit : Nat} (small : digit < 16) :
    (digitValue? (capitalDigit digit)).filter (· < 16) = some digit := by
  have all : ∀ digit < 16, (digitValue? (capitalDigit digit)).filter (· < 16) = some digit := by
    decide
  exact all digit small

theorem leadingDigits_capitalDigit {digits : List Nat} (small : ∀ digit ∈ digits, digit < 16) :
    leadingDigits 16 (digits.map capitalDigit) = digits := by
  induction digits with
  | nil => rfl
  | cons digit digits ih =>
      rw [List.forall_mem_cons] at small
      rw [List.map_cons, leadingDigits, digitValue?_capitalDigit small.1, ih small.2]

/-- Up to sixteen hexadecimal digits after `0x` are read as the number they write. -/
theorem strtoulAnyBase_hex {digits : List Nat} (small : ∀ digit ∈ digits, digit < 16)
    (some_ : digits ≠ []) (short : digits.length ≤ 16) :
    strtoulAnyBase ("0x".toList ++ digits.map capitalDigit) = positional 16 digits := by
  obtain ⟨digit, others, rfl⟩ := List.exists_cons_of_ne_nil some_
  have first := digitValue?_capitalDigit (small digit List.mem_cons_self)
  have base : literal ("0x".toList ++ (digit :: others).map capitalDigit) =
      (16, (digit :: others).map capitalDigit) := by
    show literal ('0' :: 'x' :: capitalDigit digit :: others.map capitalDigit) = _
    rw [literal, first, if_pos ⟨Or.inl rfl, rfl⟩]
    rfl
  have value : magnitude ("0x".toList ++ (digit :: others).map capitalDigit) =
      positional 16 (digit :: others) := by
    rw [magnitude, base, leadingDigits_capitalDigit small]
  have bound : positional 16 (digit :: others) < 2 ^ 64 := by
    calc positional 16 (digit :: others) < 16 ^ (digit :: others).length :=
          positional_lt small
      _ ≤ 16 ^ 16 := Nat.pow_le_pow_right (by decide) short
      _ = 2 ^ 64 := by norm_num
  have unsigned : splitSign (("0x".toList ++ (digit :: others).map capitalDigit).dropWhile isSpace) =
      (false, "0x".toList ++ (digit :: others).map capitalDigit) := rfl
  rw [strtoulAnyBase, unsigned]
  simp only [value, Nat.not_le.mpr bound, if_false, Bool.false_eq_true]

end CString
