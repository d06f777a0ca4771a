import Mathlib.Algebra.Group.Int.Defs
import Mathlib.Algebra.Group.Nat.Defs

/-!
# C strings and decimal numerals

A C string is the list of the characters before its terminator.  The number
readers of the C library are functions on such lists: leading white space, an
optional sign, the longest run of digits, and then whatever else, ignored.
The magnitude saturates at the range of a 64-bit `long`, and the callers cut
the result down to the width they store.
-/

/-- The characters of a C string, without the terminator. -/
abbrev CStr := List Char

namespace CString

/-- `isspace` in the C locale. -/
def isSpace (character : Char) : Bool :=
  [' ', '\t', '\n', Char.ofNat 11, Char.ofNat 12, '\r'].contains character

/-- `%u` and `%d` of a natural number. -/
def decimal (n : Nat) : CStr :=
  Nat.toDigits 10 n

/-- The sign and the magnitude of the numeral at the front of a string. -/
def numeral (text : CStr) : Bool × Nat :=
  let unsigned (rest : CStr) := Nat.ofDigitChars 10 (rest.takeWhile Char.isDigit) 0
  match text.dropWhile isSpace with
  | '-' :: rest => (true, unsigned rest)
  | '+' :: rest => (false, unsigned rest)
  | rest => (false, unsigned rest)

/-- `strtoul(text, NULL, 10)` for a 64-bit `unsigned long`: a numeral out of
range saturates, and a minus sign negates modulo `2 ^ 64`. -/
def strtoul (text : CStr) : Nat :=
  let (negative, magnitude) := numeral text
  if 2 ^ 64 ≤ magnitude then 2 ^ 64 - 1
  else if negative then (2 ^ 64 - magnitude) % 2 ^ 64
  else magnitude

/-- `strtol(text, NULL, 10)` for a 64-bit `long`. -/
def strtol (text : CStr) : Int :=
  let (negative, magnitude) := numeral text
  if negative then max (-(magnitude : Int)) (-2 ^ 63)
  else min (magnitude : Int) (2 ^ 63 - 1)

/-- `atoi`: the low 32 bits of `strtol`, as a signed number. -/
def atoi (text : CStr) : Int :=
  (strtol text).bmod (2 ^ 32)

/-- The text before the first occurrence of a character and the text after
it, as `strchr` locates them. -/
def splitAt? (separator : Char) : CStr → Option (CStr × CStr)
  | [] => none
  | character :: rest =>
      if character = separator then some ([], rest)
      else (splitAt? separator rest).map fun parts => (character :: parts.1, parts.2)

/-- The text before the last occurrence of a character and the text after
it, as `strrchr` locates them. -/
def splitAtLast? (separator : Char) : CStr → Option (CStr × CStr)
  | [] => none
  | character :: rest =>
      match splitAtLast? separator rest with
      | some parts => some (character :: parts.1, parts.2)
      | none => if character = separator then some ([], rest) else none

theorem splitAt?_eq_none {separator : Char} {text : CStr} (absent : separator ∉ text) :
    splitAt? separator text = none := by
  induction text with
  | nil => rfl
  | cons character rest ih =>
      rw [List.mem_cons, not_or] at absent
      rw [splitAt?, if_neg (Ne.symm absent.1), ih absent.2]
      rfl

theorem splitAt?_append {separator : Char} {front back : CStr} (absent : separator ∉ front) :
    splitAt? separator (front ++ separator :: back) = some (front, back) := by
  induction front with
  | nil => simp [splitAt?]
  | cons character rest ih =>
      have different : character ≠ separator := fun same => absent (by simp [same])
      simp [splitAt?, different, ih (fun member => absent (List.mem_cons_of_mem _ member))]

theorem splitAt?_eq_some {separator : Char} {text front rest : CStr}
    (found : splitAt? separator text = some (front, rest)) :
    text = front ++ separator :: rest ∧ separator ∉ front := by
  induction text generalizing front with
  | nil => cases found
  | cons character text ih =>
      rw [splitAt?] at found
      split at found
      · rename_i same
        cases found
        exact ⟨by rw [same, List.nil_append], List.not_mem_nil⟩
      · rename_i differs
        obtain ⟨⟨others, _⟩, parts, same⟩ := Option.map_eq_some_iff.mp found
        cases same
        obtain ⟨rfl, absent⟩ := ih parts
        refine ⟨rfl, ?_⟩
        rw [List.mem_cons, not_or]
        exact ⟨fun same => differs same.symm, absent⟩

theorem splitAtLast?_eq_none {separator : Char} {text : CStr} (missing : separator ∉ text) :
    splitAtLast? separator text = none := by
  induction text with
  | nil => rfl
  | cons character rest ih =>
      obtain ⟨differs, missing⟩ := List.ne_and_not_mem_of_not_mem_cons missing
      rw [splitAtLast?, ih missing, if_neg differs.symm]

theorem splitAtLast?_append {separator : Char} (front : CStr) {rest : CStr}
    (last : separator ∉ rest) :
    splitAtLast? separator (front ++ separator :: rest) = some (front, rest) := by
  induction front with
  | nil =>
      rw [List.nil_append, splitAtLast?, splitAtLast?_eq_none last]
      exact if_pos rfl
  | cons character front ih => rw [List.cons_append, splitAtLast?, ih]

theorem isDigit_decimal {n : Nat} {character : Char} (member : character ∈ decimal n) :
    character.isDigit = true :=
  Nat.isDigit_of_mem_toDigits (by decide) (by decide) member

theorem decimal_ne_nil (n : Nat) : decimal n ≠ [] :=
  Nat.toDigits_ne_nil

theorem decimal_injective {first second : Nat} (same : decimal first = decimal second) :
    first = second := by
  have read := congrArg (fun digits => Nat.ofDigitChars 10 digits 0) same
  simpa [decimal, Nat.ofDigitChars_ten_toDigits] using read

theorem not_isSpace_of_isDigit {character : Char} (digit : character.isDigit = true) :
    isSpace character = false := by
  cases space : isSpace character with
  | false => rfl
  | true =>
      simp only [isSpace, List.contains_eq_mem, decide_eq_true_eq, List.mem_cons,
        List.not_mem_nil, or_false] at space
      rcases space with rfl | rfl | rfl | rfl | rfl | rfl <;> revert digit <;> decide

/-- A complete decimal number. -/
def IsNumeral (text : CStr) : Prop :=
  text ≠ [] ∧ ∀ character ∈ text, character.isDigit = true

instance (text : CStr) : Decidable (IsNumeral text) :=
  inferInstanceAs (Decidable (_ ∧ _))

/-- The number that digits say. -/
def numeralValue (text : CStr) : Nat :=
  Nat.ofDigitChars 10 text 0

theorem isNumeral_decimal (n : Nat) : IsNumeral (decimal n) :=
  ⟨decimal_ne_nil n, fun _ member => isDigit_decimal member⟩

theorem numeralValue_decimal (n : Nat) : numeralValue (decimal n) = n :=
  Nat.ofDigitChars_ten_toDigits

/-- A complete number is read as what its digits say. -/
theorem numeral_of_isNumeral {text : CStr} (isNumeral : IsNumeral text) :
    numeral text = (false, numeralValue text) := by
  obtain ⟨nonempty, digits⟩ := isNumeral
  obtain ⟨first, rest, rfl⟩ := List.exists_cons_of_ne_nil nonempty
  have firstDigit : first.isDigit = true := digits first List.mem_cons_self
  have kept : (first :: rest).dropWhile isSpace = first :: rest := by
    rw [List.dropWhile_cons_of_neg]
    simp [not_isSpace_of_isDigit firstDigit]
  have all : (first :: rest).takeWhile Char.isDigit = first :: rest := by
    have whole : (first :: rest ++ []).takeWhile Char.isDigit =
        first :: rest ++ [].takeWhile Char.isDigit := List.takeWhile_append_of_pos digits
    simpa using whole
  unfold numeral
  rw [kept]
  split
  · rename_i negative
    cases negative
    exact absurd firstDigit (by decide)
  · rename_i positive
    cases positive
    exact absurd firstDigit (by decide)
  · simp only [all, numeralValue]

/-- A number that fits 32 bits is what `strtoul` leaves of it there. -/
theorem strtoul_of_isNumeral {text : CStr} (isNumeral : IsNumeral text)
    (small : numeralValue text < 2 ^ 32) : strtoul text = numeralValue text := by
  have inRange : ¬ 2 ^ 64 ≤ numeralValue text := by omega
  simp only [strtoul, numeral_of_isNumeral isNumeral, if_neg inRange, Bool.false_eq_true, if_false]

theorem atoi_of_isNumeral {text : CStr} (isNumeral : IsNumeral text)
    (small : numeralValue text < 2 ^ 31) : atoi text = numeralValue text := by
  have bounded : min (numeralValue text : Int) (2 ^ 63 - 1) = numeralValue text := by omega
  simp only [atoi, strtol, numeral_of_isNumeral isNumeral, Bool.false_eq_true, if_false, bounded,
    Int.bmod]
  omega

@[simp]
theorem atoi_decimal {n : Nat} (small : n < 2 ^ 31) : atoi (decimal n) = n := by
  have value := numeralValue_decimal n
  rw [atoi_of_isNumeral (isNumeral_decimal n) (by rwa [value]), value]

end CString
