import HdhrEmu.Lib.CString
import Mathlib.Data.List.DropRight
import Mathlib.Data.Option.Basic

/-!
# JSON texts

A reader for JSON texts as the bytes they are sent as.  It follows the
grammar: a value is read from the front of a text, with what is behind it as
the rest.  Strings have to be UTF-8, and their values are bytes again, with
escapes resolved; a number is kept as it is written.

The readers take a bound for their recursion.  A text denotes a value if it is
read as that value with some bound.
-/

inductive Json
  | null
  | bool (value : Bool)
  | num (lexeme : CStr)
  | str (text : CStr)
  | arr (elements : List Json)
  | obj (members : List (CStr × Json))

namespace Json

/-- A byte inside of the code of a character. -/
def isTail (byte : Char) : Bool :=
  0x80 ≤ byte.toNat && byte.toNat ≤ 0xBF

/-- The bytes are the UTF-8 code of one character. -/
def isCharacter : CStr → Bool
  | [a] => a.toNat < 0x80
  | [a, b] => 0xC2 ≤ a.toNat && a.toNat ≤ 0xDF && isTail b
  | [a, b, c] =>
      ((a.toNat == 0xE0 && 0xA0 ≤ b.toNat) || (a.toNat == 0xED && b.toNat ≤ 0x9F) ||
        (0xE1 ≤ a.toNat && a.toNat ≤ 0xEF && a.toNat != 0xED)) && isTail b && isTail c
  | [a, b, c, d] =>
      ((a.toNat == 0xF0 && 0x90 ≤ b.toNat) || (a.toNat == 0xF4 && b.toNat ≤ 0x8F) ||
        (0xF1 ≤ a.toNat && a.toNat ≤ 0xF3)) && isTail b && isTail c && isTail d
  | _ => false

/-- The first character, and what is behind it. -/
def character? (text : CStr) : Option (CStr × CStr) :=
  [1, 2, 3, 4].findSome? fun size =>
    if isCharacter (text.take size) then some (text.take size, text.drop size) else none

/-- The UTF-8 code of a number below `0x110000`; half of a surrogate pair is
written like a character of its size. -/
def encode (code : Nat) : CStr :=
  (if code < 0x80 then [code]
    else if code < 0x800 then [0xC0 + code / 2 ^ 6, 0x80 + code % 2 ^ 6]
    else if code < 0x10000 then
      [0xE0 + code / 2 ^ 12, 0x80 + code / 2 ^ 6 % 2 ^ 6, 0x80 + code % 2 ^ 6]
    else [0xF0 + code / 2 ^ 18, 0x80 + code / 2 ^ 12 % 2 ^ 6, 0x80 + code / 2 ^ 6 % 2 ^ 6,
      0x80 + code % 2 ^ 6]).map Char.ofNat

def hexDigit? (digit : Char) : Option Nat :=
  if digit.isDigit then some (digit.toNat - 48)
  else if 'a' ≤ digit ∧ digit ≤ 'f' then some (digit.toNat - 87)
  else if 'A' ≤ digit ∧ digit ≤ 'F' then some (digit.toNat - 55)
  else none

/-- The four digits behind `\u`. -/
def codeUnit? : CStr → Option (Nat × CStr)
  | a :: b :: c :: d :: text => do
      let a ← hexDigit? a
      let b ← hexDigit? b
      let c ← hexDigit? c
      let d ← hexDigit? d
      some (((a * 16 + b) * 16 + c) * 16 + d, text)
  | _ => none

/-- The second half of a surrogate pair, if the text goes on with one. -/
def lowSurrogate? : CStr → Option (Nat × CStr)
  | '\\' :: 'u' :: text =>
      (codeUnit? text).filter fun unit => 0xDC00 ≤ unit.1 && unit.1 < 0xE000
  | _ => none

/-- The code that a unit stands for with the text behind it, and the rest. -/
def joined (unit : Nat) (text : CStr) : Nat × CStr :=
  match (lowSurrogate? text).filter fun _ => 0xD800 ≤ unit && unit < 0xDC00 with
  | some low => (0x10000 + (unit - 0xD800) * 2 ^ 10 + (low.1 - 0xDC00), low.2)
  | none => (unit, text)

/-- The character that `\u` and the digits behind it stand for. -/
def unicode? (text : CStr) : Option (CStr × CStr) :=
  (codeUnit? text).map fun unit =>
    (encode (joined unit.1 unit.2).1, (joined unit.1 unit.2).2)

/-- The character that a letter or sign behind a backslash stands for. -/
def escaped? : Char → Option Char
  | '"' => some '"'
  | '\\' => some '\\'
  | '/' => some '/'
  | 'b' => some (Char.ofNat 8)
  | 'f' => some (Char.ofNat 12)
  | 'n' => some '\n'
  | 'r' => some '\r'
  | 't' => some '\t'
  | _ => none

/-- What stands behind a backslash. -/
def escape? : CStr → Option (CStr × CStr)
  | 'u' :: text => unicode? text
  | sign :: text => (escaped? sign).map fun byte => ([byte], text)
  | [] => none

/-- A byte that may stand for itself in a string. -/
def isPlain (byte : Char) : Bool :=
  byte != '"' && byte != '\\' && 0x20 ≤ byte.toNat

/-- One character of a string, written as itself or escaped. -/
def unit? : CStr → Option (CStr × CStr)
  | '\\' :: text => escape? text
  | text => (character? text).filter fun unit => unit.1.all isPlain

/-- The rest of a string behind its first quotation mark. -/
def string? : Nat → CStr → Option (CStr × CStr)
  | 0, _ => none
  | _ + 1, '"' :: text => some ([], text)
  | bound + 1, text =>
      (unit? text).bind fun unit =>
        (string? bound unit.2).map fun units => (unit.1 ++ units.1, units.2)

def isBlank (byte : Char) : Bool :=
  byte == ' ' || byte == '\t' || byte == '\n' || byte == '\r'

def skip (text : CStr) : CStr :=
  text.dropWhile isBlank

def digits? (text : CStr) : Option (CStr × CStr) :=
  if (text.takeWhile Char.isDigit).isEmpty then none
  else some (text.takeWhile Char.isDigit, text.dropWhile Char.isDigit)

/-- An optional part that begins with one of the given bytes and may go on
with a sign, if signs are allowed. -/
def part? (begins signs : List Char) : CStr → Option (CStr × CStr)
  | first :: text =>
      if begins.contains first then
        match text with
        | second :: behind =>
            if signs.contains second then
              (digits? behind).map fun digits => (first :: second :: digits.1, digits.2)
            else (digits? text).map fun digits => (first :: digits.1, digits.2)
        | [] => none
      else some ([], first :: text)
  | [] => some ([], [])

def number? (text : CStr) : Option (CStr × CStr) := do
  let (sign, text) := match text with
    | '-' :: text => (['-'], text)
    | text => ([], text)
  let (integer, text) ← match text with
    | '0' :: text => some (['0'], text)
    | text => digits? text
  let (fraction, text) ← part? ['.'] [] text
  let (exponent, text) ← part? ['e', 'E'] ['+', '-'] text
  some (sign ++ integer ++ fraction ++ exponent, text)

mutual

def value? : Nat → CStr → Option (Json × CStr)
  | 0, _ => none
  | bound + 1, text =>
      match text with
      | '"' :: text => (string? bound text).map fun read => (.str read.1, read.2)
      | '[' :: text =>
          match skip text with
          | ']' :: text => some (.arr [], text)
          | text => (elements? bound text).map fun read => (.arr read.1, read.2)
      | '{' :: text =>
          match skip text with
          | '}' :: text => some (.obj [], text)
          | text => (members? bound text).map fun read => (.obj read.1, read.2)
      | 'n' :: 'u' :: 'l' :: 'l' :: text => some (.null, text)
      | 't' :: 'r' :: 'u' :: 'e' :: text => some (.bool true, text)
      | 'f' :: 'a' :: 'l' :: 's' :: 'e' :: text => some (.bool false, text)
      | text => (number? text).map fun read => (.num read.1, read.2)

/-- The rest of an array with a first element. -/
def elements? : Nat → CStr → Option (List Json × CStr)
  | 0, _ => none
  | bound + 1, text =>
      (value? bound (skip text)).bind fun value =>
        match skip value.2 with
        | ',' :: text => (elements? bound text).map fun read => (value.1 :: read.1, read.2)
        | ']' :: text => some ([value.1], text)
        | _ => none

/-- The rest of an object with a first member. -/
def members? : Nat → CStr → Option (List (CStr × Json) × CStr)
  | 0, _ => none
  | bound + 1, text =>
      match skip text with
      | '"' :: text =>
          (string? bound text).bind fun name =>
            match skip name.2 with
            | ':' :: text =>
                (value? bound (skip text)).bind fun value =>
                  match skip value.2 with
                  | ',' :: text =>
                      (members? bound text).map fun read =>
                        ((name.1, value.1) :: read.1, read.2)
                  | '}' :: text => some ([(name.1, value.1)], text)
                  | _ => none
            | _ => none
      | _ => none

end

/-- The text is read as `value`, and nothing is behind it. -/
def Denotes (text : CStr) (value : Json) : Prop :=
  ∃ bound rest, value? bound (skip text) = some (value, rest) ∧ skip rest = []

/-- A sequence of characters in UTF-8. -/
inductive Utf8 : CStr → Prop
  | nil : Utf8 []
  | cons {character rest : CStr} : isCharacter character = true → Utf8 rest →
      Utf8 (character ++ rest)

/-- The text may stand in a string as it is. -/
def Verbatim (text : CStr) : Prop :=
  Utf8 text ∧ text.all isPlain = true

/-- The first byte says how long a character is. -/
theorem isCharacter_first {a : Char} {behind : CStr} (is : isCharacter (a :: behind) = true) :
    (behind.length = 0 ∧ a.toNat < 0x80) ∨
      (behind.length = 1 ∧ 0xC2 ≤ a.toNat ∧ a.toNat ≤ 0xDF) ∨
      (behind.length = 2 ∧ 0xE0 ≤ a.toNat ∧ a.toNat ≤ 0xEF) ∨
      (behind.length = 3 ∧ 0xF0 ≤ a.toNat ∧ a.toNat ≤ 0xF4) := by
  match behind, is with
  | [], is => simpa [isCharacter] using is
  | [b], is =>
      simp only [isCharacter, Bool.and_eq_true, decide_eq_true_eq] at is
      simp [is.1]
  | [b, c], is =>
      simp only [isCharacter, Bool.and_eq_true, Bool.or_eq_true, decide_eq_true_eq,
        beq_iff_eq, bne_iff_ne] at is
      obtain ⟨⟨range, -⟩, -⟩ := is
      exact Or.inr (Or.inr (Or.inl ⟨rfl, by omega, by omega⟩))
  | [b, c, d], is =>
      simp only [isCharacter, Bool.and_eq_true, Bool.or_eq_true, decide_eq_true_eq,
        beq_iff_eq] at is
      obtain ⟨⟨⟨range, -⟩, -⟩, -⟩ := is
      exact Or.inr (Or.inr (Or.inr ⟨rfl, by omega, by omega⟩))
  | _ :: _ :: _ :: _ :: _, is => simp [isCharacter] at is

theorem isCharacter_ne_nil {character : CStr} (is : isCharacter character = true) :
    character ≠ [] := by
  rintro rfl
  cases is

theorem character?_append {character : CStr} (is : isCharacter character = true) (rest : CStr) :
    character? (character ++ rest) = some (character, rest) := by
  obtain ⟨a, behind, rfl⟩ := List.exists_cons_of_ne_nil (isCharacter_ne_nil is)
  have size := isCharacter_first is
  -- No shorter part of the text is a character.
  have shorter (part : CStr) (less : part.length < behind.length) :
      isCharacter (a :: part) = false := by
    apply Bool.eq_false_iff.mpr
    intro other
    have partSize := isCharacter_first other
    omega
  match behind, is, shorter with
  | [], is, shorter => simp [character?, is]
  | [b], is, shorter => simp [character?, is, shorter]
  | [b, c], is, shorter => simp [character?, is, shorter]
  | [b, c, d], is, shorter => simp [character?, is, shorter]
  | _ :: _ :: _ :: _ :: _, is, _ => simp [isCharacter] at is

theorem character?_eq_some {text character rest : CStr}
    (read : character? text = some (character, rest)) :
    isCharacter character = true ∧ text = character ++ rest := by
  obtain ⟨size, -, found⟩ := List.exists_of_findSome?_eq_some read
  split at found
  · rename_i is
    cases found
    exact ⟨is, (List.take_append_drop size text).symm⟩
  · cases found

theorem unit?_other {text : CStr} (other : text.head? ≠ some '\\') :
    unit? text = (character? text).filter fun unit => unit.1.all isPlain := by
  fun_cases unit? text
  · exact absurd rfl other
  · rfl

theorem string?_other {bound : Nat} {text : CStr} (other : text.head? ≠ some '"') :
    string? (bound + 1) text = (unit? text).bind fun unit =>
      (string? bound unit.2).map fun units => (unit.1 ++ units.1, units.2) := by
  rw [string?.eq_def]
  split
  · cases ‹bound + 1 = 0›
  · exact absurd rfl other
  · cases ‹bound + 1 = _›
    rfl

theorem string?_mono {bound larger : Nat} {text : CStr} {read : CStr × CStr}
    (found : string? bound text = some read) (le : bound ≤ larger) :
    string? larger text = some read := by
  induction bound generalizing text read larger with
  | zero => cases found
  | succ bound ih =>
      obtain ⟨larger, rfl⟩ : ∃ less, larger = less + 1 := ⟨larger - 1, by omega⟩
      by_cases quote : text.head? = some '"'
      · obtain ⟨rest, rfl⟩ := List.head?_eq_some_iff.mp quote
        exact found
      · rw [string?_other quote] at found ⊢
        obtain ⟨unit, first, more⟩ := Option.bind_eq_some_iff.mp found
        obtain ⟨units, behind, rfl⟩ := Option.map_eq_some_iff.mp more
        rw [first, Option.bind_some, ih behind (by omega), Option.map_some]

theorem plain_not_quote {text : CStr} (plain : text.all isPlain = true) :
    '"' ∉ text ∧ '\\' ∉ text := by
  rw [List.all_eq_true] at plain
  constructor
  · intro member
    exact absurd (plain _ member) (by decide)
  · intro member
    exact absurd (plain _ member) (by decide)

theorem head?_append_of_not_mem {character : Char} {front rest : CStr} (clean : character ∉ front)
    (nonempty : front ≠ []) : (front ++ rest).head? ≠ some character := by
  obtain ⟨first, behind, rfl⟩ := List.exists_cons_of_ne_nil nonempty
  intro same
  cases same
  exact clean List.mem_cons_self

/-- A character that may stand in a string as it is stands for itself. -/
theorem string?_character {character : CStr} (is : isCharacter character = true)
    (plain : character.all isPlain = true) (bound : Nat) (rest : CStr) :
    string? (bound + 1) (character ++ rest) =
      (string? bound rest).map fun units => (character ++ units.1, units.2) := by
  have clean := plain_not_quote plain
  have nonempty := isCharacter_ne_nil is
  rw [string?_other (head?_append_of_not_mem clean.1 nonempty),
    unit?_other (head?_append_of_not_mem clean.2 nonempty), character?_append is,
    Option.filter_some, if_pos plain, Option.bind_some]

/-- So does a text of such characters. -/
theorem string?_verbatim {bound : Nat} {text : CStr} (verbatim : Verbatim text) (rest : CStr)
    (enough : text.length < bound) : string? bound (text ++ '"' :: rest) = some (text, rest) := by
  obtain ⟨utf8, plain⟩ := verbatim
  induction utf8 generalizing bound with
  | nil =>
      obtain ⟨bound, rfl⟩ : ∃ less, bound = less + 1 := ⟨bound - 1, by omega⟩
      rfl
  | @cons character behind is _ ih =>
      obtain ⟨bound, rfl⟩ : ∃ less, bound = less + 1 := ⟨bound - 1, by omega⟩
      rw [List.all_append, Bool.and_eq_true] at plain
      have size := List.length_pos_iff.mpr (isCharacter_ne_nil is)
      rw [List.length_append] at enough
      rw [List.append_assoc, string?_character is plain.1, ih (by omega) plain.2, Option.map_some]

/-- What is used up without a quotation mark is in front of it. -/
theorem front_of_append {used behind front rest : CStr}
    (same : front ++ '"' :: rest = used ++ behind) (clean : '"' ∉ used) :
    ∃ left, front = used ++ left ∧ behind = left ++ '"' :: rest := by
  rcases List.append_eq_append_iff.mp same with ⟨more, split, tail⟩ | ⟨left, split, tail⟩
  · cases more with
    | nil => exact ⟨[], by simpa using split.symm, by simpa using tail.symm⟩
    | cons first more =>
        cases tail
        exact absurd (split ▸ List.mem_append_right front List.mem_cons_self) clean
  · exact ⟨left, split, tail⟩

theorem hexDigit?_ne_quote {digit : Char} {n : Nat} (read : hexDigit? digit = some n) :
    digit ≠ '"' := by
  rintro rfl
  rw [show hexDigit? '"' = none by decide] at read
  cases read

theorem codeUnit?_uses {text rest : CStr} {unit : Nat} (read : codeUnit? text = some (unit, rest)) :
    ∃ used, text = used ++ rest ∧ '"' ∉ used ∧ used.length = 4 := by
  fun_cases codeUnit? text
  case case1 a b c d text =>
    simp only [codeUnit?, Option.bind_eq_bind, Option.bind_eq_some_iff] at read
    obtain ⟨_, first, _, second, _, third, _, fourth, done⟩ := read
    cases done
    refine ⟨[a, b, c, d], rfl, ?_, rfl⟩
    simp [(hexDigit?_ne_quote first).symm, (hexDigit?_ne_quote second).symm,
      (hexDigit?_ne_quote third).symm, (hexDigit?_ne_quote fourth).symm]
  case case2 => simp_all [codeUnit?]

theorem lowSurrogate?_uses {text rest : CStr} {low : Nat}
    (read : lowSurrogate? text = some (low, rest)) :
    ∃ used, text = used ++ rest ∧ '"' ∉ used ∧ used.length = 6 := by
  fun_cases lowSurrogate? text
  case case1 text =>
    obtain ⟨unit, -⟩ := Option.filter_eq_some_iff.mp read
    obtain ⟨used, rfl, clean, size⟩ := codeUnit?_uses unit
    exact ⟨'\\' :: 'u' :: used, rfl, by simpa using clean, by simp [size]⟩
  case case2 => simp_all [lowSurrogate?]

theorem length_encode (code : Nat) : (encode code).length ≤ 4 := by
  unfold encode
  rw [List.length_map]
  split
  · simp
  · split
    · simp
    · split <;> simp

theorem joined_uses (unit : Nat) (text : CStr) :
    ∃ used, text = used ++ (joined unit text).2 ∧ '"' ∉ used := by
  unfold joined
  split
  · rename_i low found
    obtain ⟨used, same, clean, -⟩ := lowSurrogate?_uses (Option.filter_eq_some_iff.mp found).1
    exact ⟨used, same, clean⟩
  · exact ⟨[], rfl, List.not_mem_nil⟩

theorem unicode?_uses {text unit rest : CStr} (read : unicode? text = some (unit, rest)) :
    ∃ used, text = used ++ rest ∧ '"' ∉ used ∧ unit.length ≤ used.length := by
  obtain ⟨⟨code, behind⟩, first, result⟩ := Option.map_eq_some_iff.mp read
  obtain ⟨used, rfl, clean, size⟩ := codeUnit?_uses first
  obtain ⟨more, same, cleanMore⟩ := joined_uses code behind
  obtain ⟨rfl, rfl⟩ := Prod.mk.inj result
  refine ⟨used ++ more, ?_, by simp [clean, cleanMore], ?_⟩
  · rw [List.append_assoc, ← same]
  · rw [List.length_append, size]
    exact Nat.le_add_right_of_le (length_encode _)

/-- An escape without the backslash is no shorter than what it stands for. -/
theorem escape?_uses {text unit rest : CStr} (read : escape? text = some (unit, rest)) :
    (∃ used, text = used ++ rest ∧ '"' ∉ used ∧ unit.length ≤ used.length) ∨
      (text = '"' :: rest ∧ unit = ['"']) := by
  fun_cases escape? text
  case case1 text =>
    obtain ⟨used, rfl, clean, size⟩ := unicode?_uses read
    exact Or.inl ⟨'u' :: used, rfl, by simpa using clean, Nat.le_succ_of_le size⟩
  case case2 sign text notUnicode =>
    rw [escape?] at read
    · obtain ⟨byte, named, result⟩ := Option.map_eq_some_iff.mp read
      cases result
      by_cases quote : sign = '"'
      · right
        subst quote
        cases named
        exact ⟨rfl, rfl⟩
      · exact Or.inl ⟨[sign], rfl, by simpa using Ne.symm quote, Nat.le_refl _⟩
    · exact notUnicode
  case case3 => cases read

/-- A unit of a string is a character that stands for itself, or an escape,
which only holds a quotation mark if it is the escape of one. -/
theorem unit?_uses {text unit rest : CStr} (read : unit? text = some (unit, rest)) :
    (isCharacter unit = true ∧ unit.all isPlain = true ∧ text = unit ++ rest) ∨
      (∃ used, text = used ++ rest ∧ '"' ∉ used ∧ unit.length < used.length) ∨
      (text = '\\' :: '"' :: rest ∧ unit = ['"']) := by
  fun_cases unit? text
  case case1 text =>
    rcases escape?_uses read with ⟨used, rfl, clean, size⟩ | ⟨rfl, rfl⟩
    · exact Or.inr (Or.inl ⟨'\\' :: used, rfl, by simpa using clean, Nat.lt_succ_of_le size⟩)
    · exact Or.inr (Or.inr ⟨rfl, rfl⟩)
  case case2 other =>
    rw [unit?] at read
    · obtain ⟨found, plain⟩ := Option.filter_eq_some_iff.mp read
      obtain ⟨is, same⟩ := character?_eq_some found
      exact Or.inl ⟨is, plain, same⟩
    · exact other

/-- A string whose text begins with `front` and a quotation mark either ends
in `front` or at that mark, and then is `front` itself only if `front` stands
for itself; or the mark is escaped, and the string goes on behind it. -/
theorem string?_front {bound : Nat} {front rest content behind : CStr}
    (read : string? bound (front ++ '"' :: rest) = some (content, behind)) :
    (content.length ≤ front.length ∧ (content = front → Verbatim front)) ∨
      ∃ less more, string? less rest = some (more, behind) := by
  induction bound generalizing front content with
  | zero => cases read
  | succ bound ih =>
      by_cases quote : (front ++ '"' :: rest).head? = some '"'
      · obtain ⟨tail, same⟩ := List.head?_eq_some_iff.mp quote
        rw [same] at read
        cases read
        left
        refine ⟨Nat.zero_le _, ?_⟩
        rintro rfl
        exact ⟨.nil, rfl⟩
      · rw [string?_other quote] at read
        obtain ⟨⟨unit, text⟩, first, others⟩ := Option.bind_eq_some_iff.mp read
        obtain ⟨⟨units, _⟩, last, result⟩ := Option.map_eq_some_iff.mp others
        cases result
        rcases unit?_uses first with ⟨is, plain, same⟩ | ⟨used, same, clean, shorter⟩ | ⟨same, rfl⟩
        · obtain ⟨left_, rfl, rfl⟩ := front_of_append same (plain_not_quote plain).1
          refine (ih last).imp_left ?_
          rintro ⟨size, verbatim⟩
          refine ⟨by simpa using size, ?_⟩
          intro whole
          obtain ⟨utf8, allPlain⟩ := verbatim (List.append_cancel_left whole)
          exact ⟨.cons is utf8, by simp [plain, allPlain]⟩
        · obtain ⟨left_, rfl, rfl⟩ := front_of_append same clean
          refine (ih last).imp_left ?_
          rintro ⟨size, -⟩
          have less : (unit ++ units).length < (used ++ left_).length := by
            rw [List.length_append, List.length_append]
            exact Nat.add_lt_add_of_lt_of_le shorter size
          refine ⟨Nat.le_of_lt less, ?_⟩
          intro whole
          exact absurd (congrArg List.length whole) (Nat.ne_of_lt less)
        · match front, same with
          | [first], same =>
              cases same
              exact Or.inr ⟨bound, units, last⟩
          | first :: second :: left_, same =>
              cases same
              refine (ih last).imp_left ?_
              rintro ⟨size, -⟩
              have less : (['"'] ++ units).length < ('\\' :: '"' :: left_).length := by
                simp only [List.length_append, List.length_cons, List.length_nil]
                omega
              refine ⟨Nat.le_of_lt less, ?_⟩
              intro whole
              exact absurd (congrArg List.length whole) (Nat.ne_of_lt less)

/-- A larger bound changes nothing. -/
theorem read_succ (bound : Nat) :
    (∀ text read, value? bound text = some read → value? (bound + 1) text = some read) ∧
      (∀ text read, elements? bound text = some read → elements? (bound + 1) text = some read) ∧
      ∀ text read, members? bound text = some read → members? (bound + 1) text = some read := by
  induction bound with
  | zero => exact ⟨nofun, nofun, nofun⟩
  | succ bound ih =>
      obtain ⟨value, elements, members⟩ := ih
      refine ⟨?_, ?_, ?_⟩
      · intro text read found
        rw [value?.eq_def] at found ⊢
        dsimp only at found ⊢
        split at found
        · obtain ⟨content, inner, rfl⟩ := Option.map_eq_some_iff.mp found
          rw [string?_mono inner (Nat.le_succ _), Option.map_some]
        · split at found
          · simp only [*]
          · obtain ⟨content, inner, rfl⟩ := Option.map_eq_some_iff.mp found
            rw [elements _ _ inner, Option.map_some]
        · split at found
          · simp only [*]
          · obtain ⟨content, inner, rfl⟩ := Option.map_eq_some_iff.mp found
            rw [members _ _ inner, Option.map_some]
        · exact found
        · exact found
        · exact found
        · exact found
      · intro text read found
        rw [elements?] at found ⊢
        obtain ⟨first, inner, others⟩ := Option.bind_eq_some_iff.mp found
        rw [value _ _ inner, Option.bind_some]
        split at others
        · obtain ⟨more, last, rfl⟩ := Option.map_eq_some_iff.mp others
          rw [elements _ _ last, Option.map_some]
        · exact others
        · cases others
      · intro text read found
        rw [members?] at found ⊢
        split at found
        · obtain ⟨name, inner, others⟩ := Option.bind_eq_some_iff.mp found
          rw [string?_mono inner (Nat.le_succ _), Option.bind_some]
          split at others
          · obtain ⟨first, read, others⟩ := Option.bind_eq_some_iff.mp others
            rw [value _ _ read, Option.bind_some]
            split at others
            · obtain ⟨more, last, rfl⟩ := Option.map_eq_some_iff.mp others
              rw [members _ _ last, Option.map_some]
            · exact others
            · cases others
          · cases others
        · cases found

theorem value?_mono {bound larger : Nat} {text : CStr} {read : Json × CStr}
    (found : value? bound text = some read) (le : bound ≤ larger) :
    value? larger text = some read := by
  induction le with
  | refl => exact found
  | step _ ih => exact (read_succ _).1 _ _ ih

theorem elements?_mono {bound larger : Nat} {text : CStr} {read : List Json × CStr}
    (found : elements? bound text = some read) (le : bound ≤ larger) :
    elements? larger text = some read := by
  induction le with
  | refl => exact found
  | step _ ih => exact (read_succ _).2.1 _ _ ih

@[simp]
theorem skip_skip (text : CStr) : skip (skip text) = skip text := by
  rw [skip, skip, List.dropWhile_idempotent]

theorem elements?_skip (bound : Nat) (text : CStr) :
    elements? bound (skip text) = elements? bound text := by
  cases bound with
  | zero => rfl
  | succ bound => rw [elements?, elements?, skip_skip]

/-- A member of an object that is a string: what is read next. -/
theorem members?_string {bound : Nat} {name text rest : CStr} (verbatim : Verbatim name)
    (enough : name.length ≤ bound)
    (begins : skip text = '"' :: (name ++ '"' :: ':' :: ' ' :: '"' :: rest)) :
    members? (bound + 2) text = (string? bound rest).bind fun content =>
      match skip content.2 with
      | ',' :: text =>
          (members? (bound + 1) text).map fun read =>
            ((name, .str content.1) :: read.1, read.2)
      | '}' :: text => some ([(name, .str content.1)], text)
      | _ => none := by
  have named := string?_verbatim verbatim (':' :: ' ' :: '"' :: rest) (Nat.lt_succ_of_le enough)
  have colon : skip (':' :: ' ' :: '"' :: rest) = ':' :: ' ' :: '"' :: rest := rfl
  have quote : skip (' ' :: '"' :: rest) = '"' :: rest := rfl
  rw [members?, begins]
  simp only [named, Option.bind_some, colon, quote, value?]
  cases string? bound rest <;> rfl

theorem isCharacter_ascii {byte : Char} (ascii : byte.toNat < 0x80) : isCharacter [byte] = true :=
  decide_eq_true ascii

theorem utf8_of_ascii {text : CStr} (ascii : ∀ byte ∈ text, byte.toNat < 0x80) : Utf8 text := by
  induction text with
  | nil => exact .nil
  | cons byte text ih =>
      obtain ⟨first, others⟩ := List.forall_mem_cons.mp ascii
      exact .cons (isCharacter_ascii first) (ih others)

/-- Bytes that are plain and ASCII stand for themselves. -/
theorem verbatim_of_ascii {text : CStr}
    (ascii : ∀ byte ∈ text, isPlain byte = true ∧ byte.toNat < 0x80) : Verbatim text := by
  constructor
  · exact utf8_of_ascii fun byte member => (ascii byte member).2
  · rw [List.all_eq_true]
    intro byte member
    exact (ascii byte member).1

end Json
