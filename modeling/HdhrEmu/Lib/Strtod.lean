import HdhrEmu.Lib.Scanf
import Mathlib.Data.Nat.Digits.Lemmas

/-!
# Floating point numbers as texts

`strtod` and `%.1f` for the 64-bit format, in the arithmetic of natural
numbers: every finite number of the format is a multiple of the smallest step,
`2 ^ -1074`.  A text of digits that is not too long is read as a finite number,
and a finite number is printed as such a text.
-/

namespace Double

open CString

/-- The quotient rounded to the nearest natural number, halves to the even one. -/
def roundEven (num den : Nat) : Nat :=
  if 2 * (num % den) < den ∨ 2 * (num % den) = den ∧ num / den % 2 = 0 then num / den
  else num / den + 1

theorem roundEven_le (num den : Nat) : roundEven num den ≤ num / den + 1 := by
  unfold roundEven
  split
  · exact Nat.le_succ _
  · exact Nat.le_refl _

/-- The smallest step is `2 ^ -stepBits`. -/
def stepBits : Nat := 1074

/-- The finite numbers are below `2 ^ rangeBits`. -/
def rangeBits : Nat := 1024

/-- How many steps make one. -/
def one : Nat := 2 ^ stepBits

def limit : Nat := 2 ^ rangeBits * one

/-- Whatever is below this number is not rounded to an infinity. -/
def large : Nat := 2 ^ (rangeBits - 2)

theorem one_pos : 0 < one :=
  Nat.two_pow_pos stepBits

theorem limit_eq : limit = 4 * (large * one) := by
  have bits : 2 + (rangeBits - 2) = rangeBits := rfl
  have four : 4 = 2 ^ 2 := rfl
  rw [limit, large, four, ← Nat.mul_assoc, ← Nat.pow_add, bits]

theorem pow_le_large {bits : Nat} (few : bits ≤ rangeBits - 2) : 2 ^ bits ≤ large :=
  Nat.pow_le_pow_right (by decide) few

end Double

/-- A finite number of the format: 53 bits that are shifted. -/
structure FiniteDouble where
  negative : Bool
  steps : Nat
  significant : ∃ bits shift, bits < 2 ^ 53 ∧ steps = bits * 2 ^ shift
  below : steps < Double.limit
  deriving DecidableEq

inductive Double
  | finite (value : FiniteDouble)
  | infinite (negative : Bool)
  | nan (negative : Bool)
  deriving DecidableEq

namespace Double

open CString

/-- The distance of the numbers around a quotient, as a power of two. -/
def spacing (num den : Nat) : Nat :=
  Nat.log2 (num / den) - 52

def roundSteps (num den : Nat) : Nat :=
  roundEven num (den * 2 ^ spacing num den) * 2 ^ spacing num den

theorem quotient_lt (num den : Nat) : num / den < 2 ^ (53 + spacing num den) := by
  by_cases zero : num / den = 0
  · rw [zero]
    exact Nat.two_pow_pos _
  · apply Nat.lt_of_lt_of_le ((Nat.log2_lt zero).mp (Nat.lt_succ_self _))
    apply Nat.pow_le_pow_right (by decide)
    rw [spacing]
    omega

theorem bits_le (num den : Nat) : roundEven num (den * 2 ^ spacing num den) ≤ 2 ^ 53 := by
  apply Nat.le_trans (roundEven_le _ _)
  rw [← Nat.div_div_eq_div_mul, Nat.succ_le_iff, Nat.div_lt_iff_lt_mul (Nat.two_pow_pos _),
    ← Nat.pow_add]
  exact quotient_lt num den

/-- A rounded number has 53 bits, also where rounding carries into the next one. -/
theorem significant_roundSteps (num den : Nat) :
    ∃ bits shift, bits < 2 ^ 53 ∧ roundSteps num den = bits * 2 ^ shift := by
  rcases Nat.lt_or_eq_of_le (bits_le num den) with fits | carry
  · exact ⟨_, _, fits, rfl⟩
  · refine ⟨1, 53 + spacing num den, by decide, ?_⟩
    rw [roundSteps, carry, Nat.one_mul, Nat.pow_add]

theorem roundSteps_le (num den : Nat) : roundSteps num den ≤ 2 * (num / den) + 1 := by
  have once : roundSteps num den ≤ (num / den / 2 ^ spacing num den + 1) * 2 ^ spacing num den := by
    rw [roundSteps, Nat.div_div_eq_div_mul]
    exact Nat.mul_le_mul_right _ (roundEven_le _ _)
  have whole : num / den / 2 ^ spacing num den * 2 ^ spacing num den ≤ num / den :=
    Nat.div_mul_le_self _ _
  have step : 2 ^ spacing num den ≤ num / den + 1 := by
    by_cases zero : num / den = 0
    · rw [spacing, zero]
      decide
    · apply Nat.le_succ_of_le
      apply (Nat.le_log2 zero).mp
      exact Nat.sub_le _ _
  rw [Nat.add_mul, Nat.one_mul] at once
  omega

/-- The number of the format that is nearest to a quotient. -/
def ofRatio (negative : Bool) (num den : Nat) : Double :=
  if below : roundSteps (num * one) den < limit then
    .finite ⟨negative, roundSteps (num * one) den, significant_roundSteps _ _, below⟩
  else .infinite negative

theorem finite_ofRatio {num den : Nat} (negative : Bool) (small : num < large * den) :
    ∃ value, ofRatio negative num den = .finite value := by
  have positive : 0 < den := by
    apply Nat.pos_of_ne_zero
    rintro rfl
    rw [Nat.mul_zero] at small
    exact absurd small (Nat.not_lt_zero _)
  have quotient : num * one / den < large * one := by
    rw [Nat.div_lt_iff_lt_mul positive, Nat.mul_right_comm]
    exact Nat.mul_lt_mul_of_pos_right small one_pos
  have near := roundSteps_le (num * one) den
  have below : roundSteps (num * one) den < limit := by
    rw [limit_eq]
    omega
  exact ⟨_, dif_pos below⟩

/-- `(double)i`. -/
def ofInt64 (i : Int64) : Double :=
  ofRatio (decide (i < 0)) i.toInt.natAbs 1

/-- The quotient by a whole number. -/
def divNat (divisor : Nat) : Double → Double
  | .finite value => ofRatio value.negative value.steps (divisor * one)
  | other => other

theorem finite_ofInt64 (i : Int64) : ∃ value, ofInt64 i = .finite value := by
  apply finite_ofRatio
  have low := i.le_toInt
  have high := i.toInt_lt
  have wide := pow_le_large (show 64 ≤ rangeBits - 2 by decide)
  omega

theorem finite_divNat {divisor : Nat} (more : 4 ≤ divisor) (value : FiniteDouble) :
    ∃ quotient, divNat divisor (.finite value) = .finite quotient := by
  apply finite_ofRatio
  apply Nat.lt_of_lt_of_le value.below
  rw [limit_eq, Nat.mul_left_comm]
  exact Nat.mul_le_mul_left _ (Nat.mul_le_mul_right _ more)

def signText (negative : Bool) : CStr :=
  if negative then ['-'] else []

/-- The number in tenths. -/
def tenths (value : FiniteDouble) : Nat :=
  roundEven (10 * value.steps) one

/-- `%.1f`. -/
def text : Double → CStr
  | .finite value =>
      signText value.negative ++ decimal (tenths value / 10) ++
        ['.', Nat.digitChar (tenths value % 10)]
  | .infinite negative => signText negative ++ "inf".toList
  | .nan negative => signText negative ++ "nan".toList

/-- A character of a number without an exponent. -/
def isNumeric (character : Char) : Bool :=
  character.isDigit || character == '-' || character == '.'

theorem isNumeric_of_isDigit {character : Char} (digit : character.isDigit = true) :
    isNumeric character = true := by
  rw [isNumeric, digit]
  rfl

theorem isDigit_digitChar {digit : Nat} (small : digit < 10) :
    (Nat.digitChar digit).isDigit = true := by
  have all : ∀ digit < 10, (Nat.digitChar digit).isDigit = true := by decide
  exact all digit small

theorem signText_cases (negative : Bool) : signText negative = [] ∨ signText negative = ['-'] := by
  cases negative with
  | false => exact Or.inl rfl
  | true => exact Or.inr rfl

theorem isNumeric_text (value : FiniteDouble) :
    ∀ character ∈ (Double.finite value).text, isNumeric character = true := by
  intro character member
  rw [text, List.mem_append, List.mem_append] at member
  rcases member with (sign | whole) | fraction
  · rcases signText_cases value.negative with none_ | minus
    · rw [none_] at sign
      cases sign
    · rw [minus, List.mem_singleton] at sign
      rw [sign]
      rfl
  · exact isNumeric_of_isDigit (isDigit_decimal whole)
  · rcases List.mem_cons.mp fraction with rfl | digit
    · rfl
    · rw [List.mem_singleton.mp digit]
      exact isNumeric_of_isDigit (isDigit_digitChar (Nat.mod_lt _ (by decide)))

theorem length_text (value : FiniteDouble) : (Double.finite value).text.length ≤ 312 := by
  have whole : tenths value / 10 ≤ 2 ^ rangeBits := by
    have rounded : tenths value ≤ 10 * value.steps / one + 1 := roundEven_le _ _
    have quotient : value.steps * 10 / one < 2 ^ rangeBits * 10 := by
      rw [Nat.div_lt_iff_lt_mul one_pos, Nat.mul_right_comm]
      exact Nat.mul_lt_mul_of_pos_right value.below (by decide)
    rw [Nat.mul_comm] at rounded
    omega
  obtain ⟨width, range, narrow⟩ : ∃ width, 2 ^ rangeBits < 10 ^ width ∧ width = 309 :=
    ⟨309, by decide +kernel, rfl⟩
  have digits : (decimal (tenths value / 10)).length ≤ width :=
    (Nat.length_toDigits_le_iff (by decide) (by omega)).mpr (Nat.lt_of_le_of_lt whole range)
  have sign : (signText value.negative).length ≤ 1 := by
    cases value.negative <;> decide
  rw [text, List.length_append, List.length_append]
  simp only [List.length_cons, List.length_nil]
  omega

/-- What is no finite number is printed as a word. -/
theorem text_cases (number : Double) :
    (∃ value, number = .finite value) ∨
      number.text ∈ ["nan".toList, "-nan".toList, "inf".toList, "-inf".toList] := by
  cases number with
  | finite value => exact Or.inl ⟨value, rfl⟩
  | infinite negative =>
      right
      cases negative <;> decide
  | nan negative =>
      right
      cases negative <;> decide

theorem length_text_le (number : Double) : number.text.length ≤ 312 := by
  rcases number.text_cases with ⟨value, rfl⟩ | word
  · exact length_text value
  · have short : ∀ text ∈ ["nan".toList, "-nan".toList, "inf".toList, "-inf".toList],
        text.length ≤ 312 := by decide
    exact short _ word

def digit? (base : Nat) (character : Char) : Option Nat :=
  let lower := character.toLower
  if character.isDigit then some (character.toNat - '0'.toNat)
  else if base = 16 ∧ 'a' ≤ lower ∧ lower ≤ 'f' then some (lower.toNat - 'a'.toNat + 10)
  else none

/-- The digits at the front of a text, and the rest. -/
def digits (base : Nat) : CStr → List Nat × CStr
  | [] => ([], [])
  | character :: rest =>
      match digit? base character with
      | some digit => (digit :: (digits base rest).1, (digits base rest).2)
      | none => ([], character :: rest)

def valueOf (base : Nat) (digits : List Nat) : Nat :=
  Nat.ofDigits base digits.reverse

def sign : CStr → Bool × CStr
  | '-' :: rest => (true, rest)
  | '+' :: rest => (false, rest)
  | rest => (false, rest)

/-- Digits with a point among them: their value, how many are behind the point,
and the rest. -/
def mantissa (base : Nat) (text : CStr) : Option ((Nat × Nat) × CStr) :=
  let whole := digits base text
  let fraction :=
    match whole.2 with
    | '.' :: behind => digits base behind
    | rest => ([], rest)
  if whole.1 ++ fraction.1 = [] then none
  else some ((valueOf base (whole.1 ++ fraction.1), fraction.1.length), fraction.2)

/-- The exponent behind a mark, zero where there is none. -/
def exponent (mark : Char) : CStr → Int
  | [] => 0
  | character :: rest =>
      if character.toLower = mark then
        if (sign rest).1 then -(valueOf 10 (digits 10 (sign rest).2).1 : Int)
        else valueOf 10 (digits 10 (sign rest).2).1
      else 0

def scaled (negative : Bool) (base n : Nat) (exponent : Int) : Double :=
  ofRatio negative (n * base ^ exponent.toNat) (base ^ (-exponent).toNat)

def hexadecimal? (negative : Bool) : CStr → Option Double
  | '0' :: mark :: text =>
      if mark.toLower = 'x' then
        (mantissa 16 text).map fun ((n, places), rest) =>
          scaled negative 2 n (exponent 'p' rest - 4 * places)
      else none
  | _ => none

def decimal? (negative : Bool) (text : CStr) : Option Double :=
  (mantissa 10 text).map fun ((n, places), rest) =>
    scaled negative 10 n (exponent 'e' rest - places)

/-- What `strtod` reads behind a sign, zero without a sign where there is no number. -/
def unsigned (negative : Bool) (text : CStr) : Double :=
  if "inf".toList.isPrefixOf (text.map Char.toLower) then .infinite negative
  else if "nan".toList.isPrefixOf (text.map Char.toLower) then .nan negative
  else ((hexadecimal? negative text).or (decimal? negative text)).getD (ofRatio false 0 1)

/-- `strtod(text, NULL)`, rounded to the nearest. -/
def strtod (text : CStr) : Double :=
  unsigned (sign (text.dropWhile isSpace)).1 (sign (text.dropWhile isSpace)).2

theorem toNat_of_isNumeric {character : Char} (numeric : isNumeric character = true) :
    character.toNat ≤ 57 := by
  simp only [isNumeric, Bool.or_eq_true, beq_iff_eq] at numeric
  rcases numeric with (digit | rfl) | rfl
  · simp only [Char.isDigit, ge_iff_le, Bool.and_eq_true, decide_eq_true_eq] at digit
    exact digit.2
  · decide
  · decide

/-- Such a character is no letter. -/
theorem toLower_of_isNumeric {character letter : Char} (numeric : isNumeric character = true)
    (high : 57 < letter.toNat) : character.toLower ≠ letter := by
  have low := toNat_of_isNumeric numeric
  have same : character.toLower = character := by
    apply dif_neg
    rintro ⟨least, -⟩
    have least : 65 ≤ character.toNat := least
    omega
  rw [same]
  rintro rfl
  omega

variable {text : CStr}

theorem not_isPrefixOf_of_isNumeric (numeric : ∀ character ∈ text, isNumeric character = true)
    (letter : Char) (high : 57 < letter.toNat) (more : CStr) :
    (letter :: more).isPrefixOf (text.map Char.toLower) = false := by
  cases text with
  | nil => rfl
  | cons character rest =>
      have other := toLower_of_isNumeric (numeric character List.mem_cons_self) high
      rw [List.map_cons, List.isPrefixOf_cons_cons, beq_false_of_ne other.symm, Bool.false_and]

theorem digits_spec (text : CStr) :
    (digits 10 text).1.length + (digits 10 text).2.length = text.length ∧
      (digits 10 text).2 <:+ text ∧ ∀ digit ∈ (digits 10 text).1, digit < 10 := by
  induction text with
  | nil => exact ⟨rfl, List.suffix_refl _, fun _ member => absurd member List.not_mem_nil⟩
  | cons character rest ih =>
      obtain ⟨length, suffix, small⟩ := ih
      rw [digits]
      cases read : digit? 10 character with
      | none =>
          exact ⟨Nat.zero_add _, List.suffix_refl _, fun _ member => absurd member List.not_mem_nil⟩
      | some digit =>
          refine ⟨?_, suffix.trans (List.suffix_cons _ _), ?_⟩
          · simp only [List.length_cons]
            omega
          · rw [List.forall_mem_cons]
            refine ⟨?_, small⟩
            unfold digit? at read
            dsimp only at read
            split at read
            · rename_i isDigit
              cases read
              simp only [Char.isDigit, ge_iff_le, Bool.and_eq_true, decide_eq_true_eq] at isDigit
              have high : character.toNat ≤ 57 := isDigit.2
              have zero : '0'.toNat = 48 := rfl
              omega
            · split at read
              · rename_i hexadecimal
                exact absurd hexadecimal.1 (by decide)
              · cases read

theorem valueOf_lt {digits : List Nat} (small : ∀ digit ∈ digits, digit < 10) :
    valueOf 10 digits < 10 ^ digits.length := by
  have bound := Nat.ofDigits_lt_base_pow_length' 
    fun digit member => small digit (List.mem_reverse.mp member)
  rwa [List.length_reverse] at bound

/-- The digits around a point: fewer than the text has, and the rest. -/
theorem mantissa_spec {n places : Nat} {rest : CStr}
    (read : mantissa 10 text = some ((n, places), rest)) :
    n < 10 ^ text.length ∧ rest <:+ text := by
  obtain ⟨wholeLength, wholeSuffix, wholeSmall⟩ := digits_spec text
  unfold mantissa at read
  dsimp only at read
  generalize digits 10 text = whole at read wholeLength wholeSuffix wholeSmall
  have parts : ∃ fraction : List Nat × CStr,
      (match whole.2 with
        | '.' :: behind => digits 10 behind
        | rest => ([], rest)) = fraction ∧
      fraction.1.length ≤ whole.2.length ∧ fraction.2 <:+ whole.2 ∧
        ∀ digit ∈ fraction.1, digit < 10 := by
    split
    · rename_i behind point
      obtain ⟨length, suffix, small⟩ := digits_spec behind
      refine ⟨_, rfl, ?_, ?_, small⟩
      · rw [point, List.length_cons]
        omega
      · rw [point]
        exact suffix.trans (List.suffix_cons _ _)
    · exact ⟨_, rfl, Nat.zero_le _, List.suffix_refl _,
        fun _ member => absurd member List.not_mem_nil⟩
  obtain ⟨fraction, same, length, suffix, small⟩ := parts
  rw [same] at read
  split at read
  · cases read
  · cases read
    refine ⟨?_, suffix.trans wholeSuffix⟩
    have bound := valueOf_lt (List.forall_mem_append.mpr ⟨wholeSmall, small⟩)
    apply Nat.lt_of_lt_of_le bound
    apply Nat.pow_le_pow_right (by decide)
    rw [List.length_append]
    omega

theorem exponent_of_isNumeric (numeric : ∀ character ∈ text, isNumeric character = true) :
    exponent 'e' text = 0 := by
  cases text with
  | nil => rfl
  | cons character rest =>
      exact if_neg (toLower_of_isNumeric (numeric character List.mem_cons_self) (by decide))

theorem hexadecimal?_of_isNumeric (negative : Bool)
    (numeric : ∀ character ∈ text, isNumeric character = true) :
    hexadecimal? negative text = none := by
  unfold hexadecimal?
  split
  · rename_i mark rest
    have member : mark ∈ '0' :: mark :: rest := List.mem_cons_of_mem _ List.mem_cons_self
    exact if_neg (toLower_of_isNumeric (numeric mark member) (by decide))
  · rfl

/-- Digits and a point are not read as an infinity. -/
theorem finite_decimal? {negative : Bool} {number : Double}
    (numeric : ∀ character ∈ text, isNumeric character = true) (short : text.length ≤ 76)
    (read : decimal? negative text = some number) : ∃ value, number = .finite value := by
  obtain ⟨⟨⟨n, places⟩, rest⟩, found, rfl⟩ := Option.map_eq_some_iff.mp read
  obtain ⟨bound, suffix⟩ := mantissa_spec found
  have none_ := exponent_of_isNumeric fun character member =>
    numeric character (suffix.subset member)
  have power : (0 - (places : Int)).toNat = 0 := by omega
  show ∃ value, scaled negative 10 n (exponent 'e' rest - places) = .finite value
  rw [none_, scaled, power, Nat.pow_zero, Nat.mul_one]
  apply finite_ofRatio
  have short : 10 ^ text.length ≤ 10 ^ 76 := Nat.pow_le_pow_right (by decide) short
  have range : 2 ^ 253 ≤ large := pow_le_large (by decide)
  have positive : 1 ≤ 10 ^ (-(0 - (places : Int))).toNat := Nat.one_le_pow _ _ (by decide)
  calc
    n < large := by omega
    _ ≤ large * 10 ^ (-(0 - (places : Int))).toNat := Nat.le_mul_of_pos_right _ positive

theorem finite_zero : ∃ value, ofRatio false 0 1 = .finite value := by
  apply finite_ofRatio
  rw [Nat.mul_one]
  exact Nat.lt_of_lt_of_le (by decide) (pow_le_large (show 0 ≤ rangeBits - 2 by decide))

theorem finite_unsigned (negative : Bool)
    (numeric : ∀ character ∈ text, isNumeric character = true) (short : text.length ≤ 76) :
    ∃ value, unsigned negative text = .finite value := by
  have infinity := not_isPrefixOf_of_isNumeric numeric 'i' (by decide) ['n', 'f']
  have nan_ := not_isPrefixOf_of_isNumeric numeric 'n' (by decide) ['a', 'n']
  have words : "inf".toList = ['i', 'n', 'f'] ∧ "nan".toList = ['n', 'a', 'n'] := by decide
  rw [unsigned, words.1, words.2, infinity, nan_, if_neg Bool.false_ne_true,
    if_neg Bool.false_ne_true, hexadecimal?_of_isNumeric negative numeric, Option.none_or]
  cases read : decimal? negative text with
  | none =>
      rw [Option.getD_none]
      exact finite_zero
  | some number => exact finite_decimal? numeric short read

theorem sign_suffix (text : CStr) : (sign text).2 <:+ text := by
  unfold sign
  split
  · exact List.suffix_cons _ _
  · exact List.suffix_cons _ _
  · exact List.suffix_refl _

/-- A short text of digits, signs and points is read as a finite number. -/
theorem finite_strtod (numeric : ∀ character ∈ text, isNumeric character = true)
    (short : text.length ≤ 76) : ∃ value, strtod text = .finite value := by
  have suffix : (sign (text.dropWhile isSpace)).2 <:+ text :=
    (sign_suffix _).trans (List.dropWhile_suffix _)
  apply finite_unsigned
  · exact fun character member => numeric character (suffix.subset member)
  · exact Nat.le_trans suffix.length_le short

end Double
