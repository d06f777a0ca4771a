import HdhrEmu.Lib.CString
import Mathlib.Data.List.Basic
import Mathlib.Data.List.TakeWhile

/-!
# Printing and scanning

The directives of `printf` and `sscanf` for numbers and literal characters, as
functions that return what is left of the text, and `fgets` on a whole file.
-/

namespace CString

/-- `%d`. -/
def decimalInt (i : Int) : CStr :=
  if i < 0 then '-' :: decimal i.natAbs else decimal i.natAbs

theorem decimalInt_natCast (n : Nat) : decimalInt (n : Int) = decimal n := by
  rw [decimalInt, if_neg (by omega), Int.natAbs_natCast]

/-- The run of digits at the front of a text, and the rest. -/
def scanDigits (negative : Bool) (text : CStr) : Option ((Bool × Nat) × CStr) :=
  if text.takeWhile Char.isDigit = [] then none
  else
    some ((negative, Nat.ofDigitChars 10 (text.takeWhile Char.isDigit) 0),
      text.dropWhile Char.isDigit)

/-- White space, a sign and digits; the sign and the magnitude, and the rest. -/
def scanNumeral (text : CStr) : Option ((Bool × Nat) × CStr) :=
  match text.dropWhile isSpace with
  | '-' :: rest => scanDigits true rest
  | '+' :: rest => scanDigits false rest
  | rest => scanDigits false rest

/-- `%u` and its shorter forms, for a type of `width` bits: a numeral out of
the range of `unsigned long` saturates, and then it is cut. -/
def scanUnsigned (width : Nat) (text : CStr) : Option (Nat × CStr) :=
  (scanNumeral text).map fun ((negative, magnitude), rest) =>
    ((if 2 ^ 64 ≤ magnitude then 2 ^ 64 - 1
      else if negative then (2 ^ 64 - magnitude) % 2 ^ 64
      else magnitude) % 2 ^ width, rest)

/-- `%d` for an `int` of 32 bits. -/
def scanInt (text : CStr) : Option (Int × CStr) :=
  (scanNumeral text).map fun ((negative, magnitude), rest) =>
    ((if negative then max (-(magnitude : Int)) (-2 ^ 63)
      else min (magnitude : Int) (2 ^ 63 - 1)).bmod (2 ^ 32), rest)

/-- A character of the format that is neither a blank nor a directive. -/
def scanLiteral (literal : Char) : CStr → Option CStr
  | [] => none
  | character :: rest => if character = literal then some rest else none

/-- A blank in the format. -/
def scanBlank (text : CStr) : CStr :=
  text.dropWhile isSpace

theorem scanLiteral_cons (literal : Char) (rest : CStr) :
    scanLiteral literal (literal :: rest) = some rest :=
  if_pos rfl

/-- The text does not begin with a digit. -/
def EndsNumeral (text : CStr) : Prop :=
  ∀ character ∈ text.head?, character.isDigit = false

theorem endsNumeral_cons {character : Char} (notDigit : character.isDigit = false) (rest : CStr) :
    EndsNumeral (character :: rest) := by
  intro other member
  rw [List.head?_cons, Option.mem_some] at member
  rwa [← member]

theorem takeWhile_digits {rest : CStr} (n : Nat) (ends : EndsNumeral rest) :
    (decimal n ++ rest).takeWhile Char.isDigit = decimal n ∧
      (decimal n ++ rest).dropWhile Char.isDigit = rest := by
  have all : ∀ character ∈ decimal n, character.isDigit = true :=
    fun _ member => isDigit_decimal member
  rw [List.takeWhile_append_of_pos all, List.dropWhile_append_of_pos all]
  cases rest with
  | nil => exact ⟨List.append_nil _, rfl⟩
  | cons character rest =>
      have notDigit := ends character rfl
      rw [List.takeWhile_cons_of_neg (by rw [notDigit]; decide),
        List.dropWhile_cons_of_neg (by rw [notDigit]; decide), List.append_nil]
      exact ⟨rfl, rfl⟩

theorem scanDigits_decimal (negative : Bool) (n : Nat) {rest : CStr} (ends : EndsNumeral rest) :
    scanDigits negative (decimal n ++ rest) = some ((negative, n), rest) := by
  obtain ⟨taken, dropped⟩ := takeWhile_digits n ends
  have value : Nat.ofDigitChars 10 (decimal n) 0 = n := Nat.ofDigitChars_ten_toDigits
  rw [scanDigits, taken, dropped, if_neg (decimal_ne_nil n), value]

theorem dropWhile_isSpace_decimal (n : Nat) (rest : CStr) :
    (decimal n ++ rest).dropWhile isSpace = decimal n ++ rest := by
  obtain ⟨first, more, digits⟩ := List.exists_cons_of_ne_nil (decimal_ne_nil n)
  have firstDigit : first.isDigit = true :=
    isDigit_decimal (n := n) (by rw [digits]; exact List.mem_cons_self)
  rw [digits, List.cons_append, List.dropWhile_cons_of_neg]
  rw [not_isSpace_of_isDigit firstDigit]
  decide

theorem scanNumeral_decimal (n : Nat) {rest : CStr} (ends : EndsNumeral rest) :
    scanNumeral (decimal n ++ rest) = some ((false, n), rest) := by
  have scanned := scanDigits_decimal false n ends
  obtain ⟨first, more, digits⟩ := List.exists_cons_of_ne_nil (decimal_ne_nil n)
  have firstDigit : first.isDigit = true :=
    isDigit_decimal (n := n) (by rw [digits]; exact List.mem_cons_self)
  rw [scanNumeral, dropWhile_isSpace_decimal]
  rw [digits, List.cons_append] at scanned ⊢
  split
  · rename_i minus
    cases minus
    exact absurd firstDigit (by decide)
  · rename_i plus
    cases plus
    exact absurd firstDigit (by decide)
  · exact scanned

theorem scanNumeral_minus (n : Nat) {rest : CStr} (ends : EndsNumeral rest) :
    scanNumeral ('-' :: (decimal n ++ rest)) = some ((true, n), rest) := by
  have kept : ('-' :: (decimal n ++ rest)).dropWhile isSpace = '-' :: (decimal n ++ rest) := rfl
  rw [scanNumeral, kept]
  exact scanDigits_decimal true n ends

theorem scanUnsigned_space (width : Nat) (text : CStr) :
    scanUnsigned width (' ' :: text) = scanUnsigned width text :=
  rfl

theorem scanInt_space (text : CStr) : scanInt (' ' :: text) = scanInt text :=
  rfl

theorem scanUnsigned_decimal {width n : Nat} (wide : width ≤ 64) (small : n < 2 ^ width)
    {rest : CStr} (ends : EndsNumeral rest) :
    scanUnsigned width (decimal n ++ rest) = some (n, rest) := by
  have bound : n < 2 ^ 64 := Nat.lt_of_lt_of_le small (Nat.pow_le_pow_right (by decide) wide)
  rw [scanUnsigned, scanNumeral_decimal n ends, Option.map_some]
  simp only [if_neg (Nat.not_le.mpr bound), Bool.false_eq_true, if_false, Nat.mod_eq_of_lt small]

theorem scanInt_decimalInt {i : Int} (low : -2 ^ 31 ≤ i) (high : i < 2 ^ 31) {rest : CStr}
    (ends : EndsNumeral rest) : scanInt (decimalInt i ++ rest) = some (i, rest) := by
  unfold scanInt decimalInt
  by_cases negative : i < 0
  · rw [if_pos negative, List.cons_append, scanNumeral_minus _ ends, Option.map_some]
    have value : -(i.natAbs : Int) = i := by omega
    simp only [if_true, value, Int.bmod]
    congr 2
    omega
  · rw [if_neg negative, scanNumeral_decimal _ ends, Option.map_some]
    have value : (i.natAbs : Int) = i := by omega
    simp only [Bool.false_eq_true, if_false, value, Int.bmod]
    congr 2
    omega

theorem atoi_decimalInt {i : Int} (low : -2 ^ 31 ≤ i) (high : i < 2 ^ 31) :
    atoi (decimalInt i) = i := by
  unfold decimalInt
  split
  · have digits : (decimal i.natAbs).takeWhile Char.isDigit = decimal i.natAbs :=
      List.takeWhile_eq_self_iff.mpr fun _ member => isDigit_decimal member
    have minus : numeral ('-' :: decimal i.natAbs) = (true, i.natAbs) := by
      have front : ('-' :: decimal i.natAbs).dropWhile isSpace = '-' :: decimal i.natAbs := rfl
      have value : Nat.ofDigitChars 10 (decimal i.natAbs) 0 = i.natAbs :=
        numeralValue_decimal i.natAbs
      simp only [numeral, front, digits, value]
    simp only [atoi, strtol, minus, if_true, Int.bmod]
    omega
  · rw [atoi_decimal (by omega)]
    omega

theorem lt_of_scanUnsigned {width n : Nat} {text rest : CStr}
    (scanned : scanUnsigned width text = some (n, rest)) : n < 2 ^ width := by
  obtain ⟨_, _, value⟩ := Option.map_eq_some_iff.mp scanned
  cases value
  exact Nat.mod_lt _ (Nat.two_pow_pos width)

theorem suffix_of_scanDigits {negative : Bool} {text rest : CStr} {n : Bool × Nat}
    (scanned : scanDigits negative text = some (n, rest)) : rest <:+ text := by
  unfold scanDigits at scanned
  split at scanned
  · cases scanned
  · cases scanned
    exact List.dropWhile_suffix _

theorem suffix_of_scanNumeral {text rest : CStr} {n : Bool × Nat}
    (scanned : scanNumeral text = some (n, rest)) : rest <:+ text := by
  have front : text.dropWhile isSpace <:+ text := List.dropWhile_suffix _
  unfold scanNumeral at scanned
  split at scanned
  · rename_i signed
    exact (suffix_of_scanDigits scanned).trans ((List.suffix_cons _ _).trans (signed ▸ front))
  · rename_i signed
    exact (suffix_of_scanDigits scanned).trans ((List.suffix_cons _ _).trans (signed ▸ front))
  · exact (suffix_of_scanDigits scanned).trans front

theorem suffix_of_scanUnsigned {width n : Nat} {text rest : CStr}
    (scanned : scanUnsigned width text = some (n, rest)) : rest <:+ text := by
  obtain ⟨_, found, value⟩ := Option.map_eq_some_iff.mp scanned
  cases value
  exact suffix_of_scanNumeral found

theorem of_scanInt {i : Int} {text rest : CStr} (scanned : scanInt text = some (i, rest)) :
    rest <:+ text ∧ -2 ^ 31 ≤ i ∧ i < 2 ^ 31 := by
  obtain ⟨_, found, value⟩ := Option.map_eq_some_iff.mp scanned
  cases value
  refine ⟨suffix_of_scanNumeral found, ?_, ?_⟩
  · exact Int.le_bmod (by decide)
  · exact Int.bmod_lt (by decide)

/-- `strstr`: the text from the first occurrence of another one on. -/
def strstr (needle : CStr) : CStr → Option CStr
  | [] => if needle = [] then some [] else none
  | character :: rest =>
      if needle.isPrefixOf (character :: rest) then some (character :: rest)
      else strstr needle rest

/-- `%s` with a width: white space, and then at least one other character. -/
def scanWord (width : Nat) (text : CStr) : Option CStr :=
  match text.dropWhile isSpace with
  | [] => none
  | rest => some ((rest.takeWhile fun character => !isSpace character).take width)

/-- The same, with what is behind the word. -/
def scanWordRest (width : Nat) (text : CStr) : Option (CStr × CStr) :=
  match text.dropWhile isSpace with
  | [] => none
  | rest =>
      let word := (rest.takeWhile fun character => !isSpace character).take width
      some (word, rest.drop word.length)

/-- The text has no white space in it. -/
def Unbroken (text : CStr) : Prop :=
  ∀ character ∈ text, isSpace character = false

instance (text : CStr) : Decidable (Unbroken text) :=
  decidable_of_iff ((text.all fun character => !isSpace character) = true)
    (by simp [Unbroken])

/-- The text does not begin with anything but white space. -/
def EndsWord (text : CStr) : Prop :=
  ∀ character ∈ text.head?, isSpace character = true

theorem endsWord_nil : EndsWord [] :=
  fun _ member => nomatch member

theorem EndsWord.front {text front : CStr} (ends : EndsWord text) (within : front <+: text) :
    EndsWord front := by
  obtain ⟨back, rfl⟩ := within
  intro character member
  exact ends character (List.mem_head?_append_of_mem_head? member)

theorem endsWord_cons {character : Char} (space : isSpace character = true) (rest : CStr) :
    EndsWord (character :: rest) := by
  intro other member
  rw [List.head?_cons, Option.mem_some] at member
  rwa [← member]

theorem endsWord_space (rest : CStr) : EndsWord (' ' :: rest) :=
  endsWord_cons (by decide) rest

theorem takeWhile_word {word rest : CStr} (unbroken : Unbroken word)
    (ends : EndsWord rest) :
    (word ++ rest).takeWhile (fun character => !isSpace character) = word := by
  rw [List.takeWhile_append_of_pos (by simpa [Unbroken] using unbroken)]
  cases rest with
  | nil => exact List.append_nil _
  | cons character rest =>
      have space := ends character rfl
      rw [List.takeWhile_cons_of_neg (by rw [space]; decide), List.append_nil]

/-- The first word of a text determines where it ends. -/
theorem word_append_inj {first second restFirst restSecond : CStr}
    (unbrokenFirst : Unbroken first)
    (unbrokenSecond : Unbroken second)
    (endsFirst : EndsWord restFirst) (endsSecond : EndsWord restSecond)
    (same : first ++ restFirst = second ++ restSecond) :
    first = second ∧ restFirst = restSecond := by
  have words := congrArg (List.takeWhile fun character => !isSpace character) same
  rw [takeWhile_word unbrokenFirst endsFirst, takeWhile_word unbrokenSecond endsSecond] at words
  subst words
  exact ⟨rfl, List.append_cancel_left same⟩

theorem unbroken_append {first second : CStr} :
    Unbroken (first ++ second) ↔ Unbroken first ∧ Unbroken second :=
  List.forall_mem_append

theorem unbroken_decimal (n : Nat) : Unbroken (decimal n) :=
  fun _ member => not_isSpace_of_isDigit (isDigit_decimal member)

theorem scanWord_append {width : Nat} {word rest : CStr} (nonempty : word ≠ [])
    (unbroken : Unbroken word) (fits : word.length ≤ width)
    (ends : EndsWord rest) : scanWord width (word ++ rest) = some word := by
  obtain ⟨first, more, rfl⟩ := List.exists_cons_of_ne_nil nonempty
  have solid := unbroken first List.mem_cons_self
  have kept : (first :: more ++ rest).dropWhile isSpace = first :: more ++ rest := by
    rw [List.cons_append, List.dropWhile_cons_of_neg]
    rw [solid]
    decide
  have scanned : scanWord width (first :: more ++ rest) =
      some (((first :: more ++ rest).takeWhile fun character => !isSpace character).take width) := by
    rw [scanWord, kept]
    rfl
  rw [scanned, takeWhile_word unbroken ends, List.take_of_length_le fits]

/-- A word is cut to the width; what is cut off is left behind. -/
theorem scanWordRest_word {width : Nat} {word rest : CStr} (nonempty : word ≠ [])
    (unbroken : Unbroken word) (ends : EndsWord rest) :
    scanWordRest width (word ++ rest) =
      some (word.take width, word.drop (word.take width).length ++ rest) := by
  obtain ⟨first, more, rfl⟩ := List.exists_cons_of_ne_nil nonempty
  have solid := unbroken first List.mem_cons_self
  have kept : (first :: more ++ rest).dropWhile isSpace = first :: more ++ rest := by
    rw [List.cons_append, List.dropWhile_cons_of_neg]
    rw [solid]
    decide
  have short : ((first :: more).take width).length ≤ (first :: more).length :=
    (List.take_prefix _ _).length_le
  have scanned : scanWordRest width (first :: more ++ rest) =
      some ((((first :: more ++ rest).takeWhile fun character => !isSpace character).take width),
        (first :: more ++ rest).drop
          (((first :: more ++ rest).takeWhile fun character => !isSpace character).take
            width).length) := by
    rw [scanWordRest, kept]
    rfl
  rw [scanned, takeWhile_word unbroken ends, List.drop_append_of_le_length short]

/-- Nothing is found where the first character does not occur. -/
theorem strstr_append {first : Char} {needle front : CStr} (missing : first ∉ front) (rest : CStr) :
    strstr (first :: needle) (front ++ rest) = strstr (first :: needle) rest := by
  induction front with
  | nil => rfl
  | cons character front ih =>
      obtain ⟨differs, missing⟩ := List.ne_and_not_mem_of_not_mem_cons missing
      rw [List.cons_append, strstr, List.isPrefixOf_cons_cons, beq_false_of_ne differs,
        Bool.false_and, if_neg Bool.false_ne_true, ih missing]

theorem strstr_self {needle : CStr} (nonempty : needle ≠ []) (rest : CStr) :
    strstr needle (needle ++ rest) = some (needle ++ rest) := by
  obtain ⟨first, more, rfl⟩ := List.exists_cons_of_ne_nil nonempty
  have found : (first :: more).isPrefixOf (first :: more ++ rest) = true := by
    rw [List.isPrefixOf_iff_prefix]
    exact List.prefix_append _ _
  rw [List.cons_append] at found ⊢
  rw [strstr, if_pos found]

theorem scanDigits_append {negative : Bool} {text rest : CStr} {n : Bool × Nat}
    (scanned : scanDigits negative text = some (n, rest)) (more : rest ≠ []) (behind : CStr) :
    scanDigits negative (text ++ behind) = some (n, rest ++ behind) := by
  unfold scanDigits at scanned ⊢
  split at scanned
  · cases scanned
  · rename_i digits
    cases scanned
    have short : (text.takeWhile Char.isDigit).length ≠ text.length := by
      intro whole
      have parts := congrArg List.length (List.takeWhile_append_dropWhile (p := Char.isDigit) (l := text))
      rw [List.length_append, whole] at parts
      exact more (List.eq_nil_of_length_eq_zero (by omega))
    have taken : (text ++ behind).takeWhile Char.isDigit = text.takeWhile Char.isDigit := by
      rw [List.takeWhile_append, if_neg short]
    have dropped : (text ++ behind).dropWhile Char.isDigit =
        text.dropWhile Char.isDigit ++ behind := by
      rw [List.dropWhile_append, if_neg (by simpa using more)]
    rw [taken, dropped, if_neg digits]

/-- A number that is followed by something is read in the same way when the
text goes on. -/
theorem scanNumeral_append {text rest : CStr} {n : Bool × Nat}
    (scanned : scanNumeral text = some (n, rest)) (more : rest ≠ []) (behind : CStr) :
    scanNumeral (text ++ behind) = some (n, rest ++ behind) := by
  have nonempty : text.dropWhile isSpace ≠ [] := by
    intro empty
    rw [scanNumeral, empty] at scanned
    cases scanned
  have dropped : (text ++ behind).dropWhile isSpace = text.dropWhile isSpace ++ behind := by
    rw [List.dropWhile_append, if_neg (by simpa using nonempty)]
  unfold scanNumeral at scanned ⊢
  rw [dropped]
  obtain ⟨first, others, front⟩ := List.exists_cons_of_ne_nil nonempty
  rw [front] at scanned ⊢
  by_cases minus : first = '-'
  · subst minus
    exact scanDigits_append scanned more behind
  · by_cases plus : first = '+'
    · subst plus
      exact scanDigits_append scanned more behind
    · have plain (tail : CStr) : (match first :: tail with
          | '-' :: rest => scanDigits true rest
          | '+' :: rest => scanDigits false rest
          | rest => scanDigits false rest) = scanDigits false (first :: tail) := by
        split
        · rename_i same
          cases same
          exact absurd rfl minus
        · rename_i same
          cases same
          exact absurd rfl plus
        · rfl
      rw [plain] at scanned
      rw [List.cons_append, plain]
      exact scanDigits_append scanned more behind

theorem scanUnsigned_append {width n : Nat} {text rest : CStr}
    (scanned : scanUnsigned width text = some (n, rest)) (more : rest ≠ []) (behind : CStr) :
    scanUnsigned width (text ++ behind) = some (n, rest ++ behind) := by
  unfold scanUnsigned at scanned ⊢
  obtain ⟨⟨numeral, rest'⟩, found, value⟩ := Option.map_eq_some_iff.mp scanned
  cases value
  rw [scanNumeral_append found more behind, Option.map_some]

theorem scanLiteral_append {literal : Char} {text rest : CStr}
    (scanned : scanLiteral literal text = some rest) (behind : CStr) :
    scanLiteral literal (text ++ behind) = some (rest ++ behind) := by
  cases text with
  | nil => cases scanned
  | cons character text =>
      rw [scanLiteral] at scanned
      split at scanned
      · rename_i same
        cases scanned
        exact if_pos same
      · cases scanned

theorem scanBlank_append {text : CStr} (more : scanBlank text ≠ []) (behind : CStr) :
    scanBlank (text ++ behind) = scanBlank text ++ behind := by
  unfold scanBlank at more ⊢
  rw [List.dropWhile_append, if_neg (by simpa using more)]

/-- The last character is white space. -/
def EndsInSpace (text : CStr) : Prop :=
  ∃ character ∈ text.getLast?, isSpace character = true

instance (text : CStr) : Decidable (EndsInSpace text) :=
  match last : text.getLast? with
  | none => isFalse fun ⟨_, at_, _⟩ => by cases last.symm.trans at_
  | some character =>
      decidable_of_iff (isSpace character = true)
        ⟨fun space => ⟨character, last, space⟩,
          fun ⟨_, at_, space⟩ => Option.some.inj (last.symm.trans at_) ▸ space⟩

theorem EndsInSpace.suffix {text rest : CStr} (ends : EndsInSpace text) (suffix : rest <:+ text)
    (nonempty : rest ≠ []) : EndsInSpace rest := by
  obtain ⟨front, rfl⟩ := suffix
  obtain ⟨character, last, space⟩ := ends
  rw [List.getLast?_append_of_ne_nil _ nonempty] at last
  exact ⟨character, last, space⟩

theorem EndsInSpace.mem {text : CStr} (ends : EndsInSpace text) :
    ∃ character ∈ text, isSpace character = true := by
  obtain ⟨character, last, space⟩ := ends
  exact ⟨character, List.mem_of_getLast? last, space⟩

/-- A run that ends inside a text is not changed by what is behind it. -/
theorem takeWhile_append_of_mem {p : Char → Bool} {text : CStr} {character : Char}
    (member : character ∈ text) (stops : p character = false) (behind : CStr) :
    (text ++ behind).takeWhile p = text.takeWhile p := by
  rw [List.takeWhile_append, if_neg]
  intro whole
  have all := (List.takeWhile_prefix (l := text) p).eq_of_length whole
  rw [List.takeWhile_eq_self_iff] at all
  exact absurd (all character member) (by rw [stops]; exact Bool.false_ne_true)

/-- A number without a sign. -/
theorem numeral_unsigned {text others : CStr} {first : Char}
    (front : text.dropWhile isSpace = first :: others) (minus : first ≠ '-') (plus : first ≠ '+') :
    numeral text = (false, Nat.ofDigitChars 10 ((first :: others).takeWhile Char.isDigit) 0) := by
  unfold numeral
  dsimp only
  rw [front]
  split
  · rename_i same
    cases same
    exact absurd rfl minus
  · rename_i same
    cases same
    exact absurd rfl plus
  · rfl

/-- A number of a text that ends in white space. -/
theorem numeral_append {text : CStr} (solid : text.dropWhile isSpace ≠ [])
    (ends : EndsInSpace text) (behind : CStr) : numeral (text ++ behind) = numeral text := by
  have dropped : (text ++ behind).dropWhile isSpace = text.dropWhile isSpace ++ behind := by
    rw [List.dropWhile_append, if_neg (by simpa using solid)]
  obtain ⟨stop, member, space⟩ := (ends.suffix (List.dropWhile_suffix _) solid).mem
  have notDigit : stop.isDigit = false := by
    cases digit : stop.isDigit with
    | false => rfl
    | true => cases (not_isSpace_of_isDigit digit).symm.trans space
  obtain ⟨first, others, front⟩ := List.exists_cons_of_ne_nil solid
  have longer : (text ++ behind).dropWhile isSpace = first :: (others ++ behind) := by
    rw [dropped, front, List.cons_append]
  have behindSign (signed : isSpace first = false) : stop ∈ others := by
    rw [front, List.mem_cons] at member
    rcases member with rfl | member
    · cases signed.symm.trans space
    · exact member
  by_cases minus : first = '-'
  · subst minus
    have digits := takeWhile_append_of_mem (behindSign (by decide)) notDigit behind
    simp only [numeral, longer, front, digits]
  · by_cases plus : first = '+'
    · subst plus
      have digits := takeWhile_append_of_mem (behindSign (by decide)) notDigit behind
      simp only [numeral, longer, front, digits]
    · have digits := takeWhile_append_of_mem member notDigit behind
      rw [front, List.cons_append] at digits
      rw [numeral_unsigned longer minus plus, numeral_unsigned front minus plus, digits]

theorem scanWordRest_append {width : Nat} {text word rest : CStr} (ends : EndsInSpace text)
    (scanned : scanWordRest width text = some (word, rest)) (behind : CStr) :
    EndsInSpace rest ∧ scanWordRest width (text ++ behind) = some (word, rest ++ behind) := by
  have solid : text.dropWhile isSpace ≠ [] := by
    intro empty
    rw [scanWordRest, empty] at scanned
    cases scanned
  have dropped : (text ++ behind).dropWhile isSpace = text.dropWhile isSpace ++ behind := by
    rw [List.dropWhile_append, if_neg (by simpa using solid)]
  have inside : EndsInSpace (text.dropWhile isSpace) := ends.suffix (List.dropWhile_suffix _) solid
  obtain ⟨stop, member, space⟩ := inside.mem
  unfold scanWordRest at scanned ⊢
  rw [dropped]
  obtain ⟨first, others, front⟩ := List.exists_cons_of_ne_nil solid
  rw [front] at scanned inside member ⊢
  have run := @takeWhile_append_of_mem (fun character => !isSpace character) _ _ member
    (by rw [space]; rfl) behind
  rw [List.cons_append] at run ⊢
  cases scanned
  have short : (((first :: others).takeWhile fun character => !isSpace character).take width).length ≤
      (first :: others).length :=
    ((List.take_prefix _ _).trans (List.takeWhile_prefix _)).length_le
  refine ⟨inside.suffix (List.drop_suffix _ _) ?_, ?_⟩
  · intro nothing
    rw [List.drop_eq_nil_iff] at nothing
    have whole := ((List.take_prefix width _).trans (List.takeWhile_prefix _)).eq_of_length
      (Nat.le_antisymm short nothing)
    rw [← whole] at member
    have solid := List.mem_takeWhile_imp (List.mem_of_mem_take member)
    rw [space] at solid
    cases solid
  · dsimp only
    rw [run, ← List.cons_append, List.drop_append_of_le_length short]

theorem strstr_suffix {needle text found : CStr} (occurs : strstr needle text = some found) :
    found <:+ text := by
  induction text with
  | nil =>
      rw [strstr] at occurs
      split at occurs <;> cases occurs
      exact List.suffix_rfl
  | cons character rest ih =>
      rw [strstr] at occurs
      split at occurs
      · cases occurs
        exact List.suffix_rfl
      · exact (ih occurs).trans (List.suffix_cons _ _)

theorem strstr_begins {needle text found : CStr} (occurs : strstr needle text = some found) :
    needle <+: found := by
  induction text with
  | nil =>
      rw [strstr] at occurs
      split at occurs <;> cases occurs
      rename_i empty
      exact empty ▸ List.prefix_rfl
  | cons character rest ih =>
      rw [strstr] at occurs
      split at occurs
      · rename_i here
        cases occurs
        exact List.isPrefixOf_iff_prefix.mp here
      · exact ih occurs

/-- The first occurrence stays where it is when the text goes on. -/
theorem strstr_longer {needle text found : CStr} (nonempty : needle ≠ [])
    (occurs : strstr needle text = some found) (behind : CStr) :
    strstr needle (text ++ behind) = some (found ++ behind) := by
  induction text with
  | nil =>
      rw [strstr, if_neg nonempty] at occurs
      cases occurs
  | cons character rest ih =>
      rw [strstr] at occurs
      rw [List.cons_append, strstr]
      split at occurs
      · rename_i here
        cases occurs
        rw [if_pos]
        · rfl
        · rw [List.isPrefixOf_iff_prefix] at here ⊢
          exact here.trans (List.prefix_append (character :: rest) behind)
      · rename_i elsewhere
        rw [if_neg, ih occurs]
        intro here
        apply elsewhere
        rw [List.isPrefixOf_iff_prefix] at here ⊢
        have short : needle.length ≤ (character :: rest).length :=
          Nat.le_succ_of_le
            (Nat.le_trans (strstr_begins occurs).length_le (strstr_suffix occurs).length_le)
        exact List.prefix_of_prefix_length_le here (List.prefix_append (character :: rest) behind)
          short

/-- A text that ends with the first occurrence does not have it earlier. -/
theorem strstr_eq_none_of_prefix {needle text front : CStr} (nonempty : needle ≠ [])
    (occurs : strstr needle text = some needle) (prefix_ : front <+: text) (proper : front ≠ text) :
    strstr needle front = none := by
  obtain ⟨back, rfl⟩ := prefix_
  cases early : strstr needle front with
  | none => rfl
  | some found =>
      have same : found ++ back = needle :=
        Option.some.inj ((strstr_longer nonempty early back).symm.trans occurs)
      have long := (strstr_begins early).length_le
      have lengths := congrArg List.length same
      rw [List.length_append] at lengths
      have nothing : back = [] := List.eq_nil_of_length_eq_zero (by omega)
      rw [nothing, List.append_nil] at proper
      exact absurd rfl proper

/-- A text that is searched for reaches beyond a front that lacks one of its
characters: the front is a part of what is before that character. -/
theorem prefix_of_mark_not_mem {before behind front rest : CStr} {mark : Char}
    (missing : mark ∉ front) (found : before ++ mark :: behind <+: front ++ rest) :
    front <+: before := by
  have shorter : before <+: front ++ rest := (List.prefix_append _ _).trans found
  have front_ := List.prefix_append front rest
  rcases List.prefix_or_prefix_of_prefix shorter front_ with inside | beyond
  · obtain ⟨more, rfl⟩ := inside
    rw [List.append_assoc, List.prefix_append_right_inj] at found
    cases more with
    | nil =>
        exact (List.append_nil before).symm ▸ List.prefix_rfl
    | cons other more =>
        obtain ⟨rfl, -⟩ := List.cons_prefix_cons.mp found
        exact absurd (List.mem_append_right _ List.mem_cons_self) missing
  · exact beyond

/-- Nothing is found in a front without one character of the text, nor across
its end, if its last character is not one of those before that character. -/
theorem strstr_front {before behind front : CStr} {mark last : Char}
    (missing : mark ∉ front ++ [last]) (apart : last ∉ before) (rest : CStr) :
    strstr (before ++ mark :: behind) (front ++ [last] ++ rest) =
      strstr (before ++ mark :: behind) rest := by
  have step (character : Char) (others : CStr) (missing : mark ∉ character :: others)
      (ends : last ∈ character :: others) :
      strstr (before ++ mark :: behind) (character :: others ++ rest) =
        strstr (before ++ mark :: behind) (others ++ rest) := by
    rw [List.cons_append, strstr, if_neg]
    intro here
    have inside := prefix_of_mark_not_mem missing (List.isPrefixOf_iff_prefix.mp here)
    exact apart (inside.subset ends)
  induction front with
  | nil => exact step last [] missing List.mem_cons_self
  | cons character front ih =>
      rw [List.cons_append] at missing
      have ends : last ∈ character :: (front ++ [last]) := by simp
      rw [List.cons_append, step character _ missing ends]
      exact ih fun member => missing (List.mem_cons_of_mem _ member)

/-- What is not found in a text is not found across its end either, if what
follows begins with a character that is not searched for. -/
theorem strstr_separated {needle text rest : CStr} (nonempty : needle ≠ [])
    (absent : strstr needle text = none)
    (apart : ∀ character ∈ rest.head?, character ∉ needle) :
    strstr needle (text ++ rest) = strstr needle rest := by
  induction text with
  | nil => rfl
  | cons character text ih =>
      rw [strstr] at absent
      split at absent
      · cases absent
      · rename_i elsewhere
        rw [List.cons_append, strstr, if_neg, ih absent]
        intro here
        rw [List.isPrefixOf_iff_prefix] at here elsewhere
        rcases List.prefix_or_prefix_of_prefix here (List.prefix_append (character :: text) rest) with
          inside | beyond
        · exact elsewhere inside
        · obtain ⟨more, rfl⟩ := beyond
          have here : (character :: text) ++ more <+: (character :: text) ++ rest := here
          rw [List.prefix_append_right_inj] at here
          cases more with
          | nil =>
              rw [List.append_nil] at elsewhere
              exact elsewhere (List.prefix_refl _)
          | cons first more =>
              obtain ⟨behind, rfl⟩ := here
              exact apart first rfl (List.mem_append_right _ List.mem_cons_self)

/-- There is a first occurrence where there is one at all. -/
theorem exists_strstr {needle : CStr} (nonempty : needle ≠ []) (front behind : CStr) :
    ∃ found, strstr needle (front ++ (needle ++ behind)) = some found := by
  induction front with
  | nil => exact ⟨_, strstr_self nonempty behind⟩
  | cons character front ih =>
      rw [List.cons_append, strstr]
      split
      · exact ⟨_, rfl⟩
      · exact ih

theorem not_mem_decimal {character : Char} (notDigit : character.isDigit = false) (n : Nat) :
    character ∉ decimal n := by
  intro member
  exact absurd (isDigit_decimal member) (by rw [notDigit]; decide)

theorem newline_not_mem_decimal (n : Nat) : '\n' ∉ decimal n :=
  not_mem_decimal (by decide) n

theorem not_mem_decimalInt {character : Char} (notDigit : character.isDigit = false)
    (notSign : character ≠ '-') (i : Int) : character ∉ decimalInt i := by
  unfold decimalInt
  split
  · rw [List.mem_cons, not_or]
    exact ⟨notSign, not_mem_decimal notDigit _⟩
  · exact not_mem_decimal notDigit _

/-- One `fgets` with room for `room` characters: what it stores, and the rest
of the file. -/
def fgets : Nat → CStr → CStr × CStr
  | 0, file => ([], file)
  | _ + 1, [] => ([], [])
  | room + 1, character :: file =>
      if character = '\n' then ([character], file)
      else
        let line := fgets room file
        (character :: line.1, line.2)

theorem length_fgets (room : Nat) (character : Char) (file : CStr) :
    (fgets (room + 1) (character :: file)).2.length ≤ file.length := by
  have all : ∀ room file, (fgets room file).2.length ≤ file.length := by
    intro room file
    fun_induction fgets room file with
    | case1 | case2 | case3 => simp
    | case4 _ _ _ _ line ih => exact Nat.le_succ_of_le ih
  rw [fgets]
  split
  · exact Nat.le_refl _
  · exact all room file

/-- The lines that a loop on `fgets` sees, with a buffer of `room + 2` bytes. -/
def fgetsLines (room : Nat) : CStr → List CStr
  | [] => []
  | character :: file =>
      (fgets (room + 1) (character :: file)).1 ::
        fgetsLines room (fgets (room + 1) (character :: file)).2
termination_by file => file.length
decreasing_by exact Nat.lt_succ_of_le (length_fgets room character file)

theorem fgets_line {room : Nat} {line : CStr} (oneLine : '\n' ∉ line)
    (short : line.length < room) (rest : CStr) :
    fgets room (line ++ '\n' :: rest) = (line ++ ['\n'], rest) := by
  induction line generalizing room with
  | nil =>
      obtain ⟨room, rfl⟩ := Nat.exists_eq_succ_of_ne_zero (Nat.ne_of_gt short)
      rfl
  | cons character line ih =>
      rw [List.mem_cons, not_or] at oneLine
      rw [List.length_cons] at short
      obtain ⟨room, rfl⟩ := Nat.exists_eq_succ_of_ne_zero (Nat.ne_of_gt (Nat.zero_lt_of_lt short))
      rw [List.cons_append, fgets, if_neg (Ne.symm oneLine.1), ih oneLine.2 (by omega)]
      rfl

/-- A line that fits the buffer is read as it is. -/
theorem fgetsLines_line {room : Nat} {line : CStr} (oneLine : '\n' ∉ line)
    (short : line.length ≤ room) (rest : CStr) :
    fgetsLines room (line ++ '\n' :: rest) = (line ++ ['\n']) :: fgetsLines room rest := by
  have read := fgets_line oneLine (Nat.lt_succ_of_le short) rest
  obtain ⟨first, file, whole⟩ : ∃ first file, line ++ '\n' :: rest = first :: file :=
    List.exists_cons_of_ne_nil (by simp)
  rw [whole] at read ⊢
  rw [fgetsLines, read]

/-- A file of lines that fit is read line by line. -/
theorem fgetsLines_lines {room : Nat} {lines : List CStr}
    (fit : ∀ line ∈ lines, '\n' ∉ line ∧ line.length ≤ room) :
    fgetsLines room (lines.flatMap fun line => line ++ ['\n']) =
      lines.map fun line => line ++ ['\n'] := by
  induction lines with
  | nil => rw [List.flatMap_nil, fgetsLines, List.map_nil]
  | cons line lines ih =>
      rw [List.forall_mem_cons] at fit
      rw [List.flatMap_cons, List.append_assoc, List.singleton_append,
        fgetsLines_line fit.1.1 fit.1.2, ih fit.2, List.map_cons]

theorem of_fgets {room : Nat} {file : CStr} :
    ((fgets room file).1 ⊆ file ∧ (fgets room file).2 ⊆ file) ∧
      '\n' ∉ (fgets room file).1.dropLast := by
  fun_induction fgets room file with
  | case1 | case2 | case3 => simp
  | case4 room character file differs line ih =>
      obtain ⟨⟨stored, left_⟩, clean⟩ := ih
      refine ⟨⟨List.cons_subset_cons _ stored, List.subset_cons_of_subset _ left_⟩, ?_⟩
      intro member
      cases read : line.1 with
      | nil =>
          rw [read] at member
          simp at member
      | cons second others =>
          rw [read, List.dropLast_cons_cons] at member
          rcases List.mem_cons.mp member with same | later
          · exact differs same.symm
          · rw [← read] at later
            exact clean later

/-- A line is a part of the file, and only its last character may end it. -/
theorem of_mem_fgetsLines {room : Nat} {file line : CStr} (member : line ∈ fgetsLines room file) :
    line ⊆ file ∧ '\n' ∉ line.dropLast := by
  fun_induction fgetsLines room file with
  | case1 => cases member
  | case2 character file ih =>
      obtain ⟨⟨stored, left_⟩, clean⟩ := @of_fgets (room + 1) (character :: file)
      rcases List.mem_cons.mp member with rfl | later
      · exact ⟨stored, clean⟩
      · obtain ⟨inside, ends⟩ := ih later
        exact ⟨fun c mem => left_ (inside mem), ends⟩

/-- A line without a line end is read to its end. -/
theorem fgets_unended {room : Nat} {line : CStr} (oneLine : '\n' ∉ line)
    (short : line.length ≤ room) : fgets room line = (line, []) := by
  induction line generalizing room with
  | nil => cases room <;> rfl
  | cons character line ih =>
      rw [List.mem_cons, not_or] at oneLine
      rw [List.length_cons] at short
      obtain ⟨room, rfl⟩ := Nat.exists_eq_succ_of_ne_zero (Nat.ne_of_gt (Nat.zero_lt_of_lt short))
      rw [fgets, if_neg (Ne.symm oneLine.1), ih oneLine.2 (by omega)]

/-- A text without a terminator is whole as a C string. -/
theorem takeWhile_text {text : CStr} (isText : '\x00' ∉ text) :
    text.takeWhile (· ≠ '\x00') = text := by
  rw [List.takeWhile_eq_self_iff]
  intro character member
  rw [decide_eq_true_eq]
  rintro rfl
  exact isText member

/-- A text of whole lines. -/
def WholeLines (text : CStr) : Prop :=
  text = [] ∨ text.getLast? = some '\n'

/-- A line is not read beyond the lines it stands in. -/
theorem fgets_append {room : Nat} {front : CStr} (ends : front.getLast? = some '\n') (rest : CStr) :
    fgets room (front ++ rest) = ((fgets room front).1, (fgets room front).2 ++ rest) ∧
      WholeLines (fgets room front).2 := by
  fun_induction fgets room front with
  | case1 file => exact ⟨rfl, Or.inr ends⟩
  | case2 => cases ends
  | case3 room file =>
      refine ⟨rfl, ?_⟩
      cases file with
      | nil => exact Or.inl rfl
      | cons next file => exact Or.inr ends
  | case4 room character file other line ih =>
      cases file with
      | nil => exact absurd (Option.some.inj ends) other
      | cons next file =>
          obtain ⟨read, whole⟩ := ih ends
          refine ⟨?_, whole⟩
          rw [List.cons_append, fgets, if_neg other, read]

/-- Whole lines are read first. -/
theorem fgetsLines_append {room : Nat} {front : CStr} (whole : WholeLines front) (rest : CStr) :
    fgetsLines room (front ++ rest) = fgetsLines room front ++ fgetsLines room rest := by
  fun_induction fgetsLines room front with
  | case1 => rfl
  | case2 character file ih =>
      have ends : (character :: file).getLast? = some '\n' := by
        rcases whole with none_ | ends
        · cases none_
        · exact ends
      obtain ⟨read, left_⟩ := @fgets_append (room + 1) _ ends rest
      rw [List.cons_append] at read ⊢
      rw [fgetsLines, read, ih left_]
      rfl

end CString
