import HdhrEmu.Lib.Json
import HdhrEmu.Lib.Scanf
import Mathlib.Algebra.GroupWithZero.Nat

/-!
# JSON texts in the making

A program puts a JSON text together from parts: numbers as they are printed,
strings that it escapes, and the texts of arrays and objects.  For every part
there is a condition under which it is read as a value; where it fails, nothing
that the part stands in is read.  The rules below say what becomes of these
conditions when parts are put together.
-/

namespace Json

/-- A hexadecimal digit, in lower case. -/
def lowerDigit (digit : Nat) : Char :=
  "0123456789abcdef".toList.getD digit '0'

/-- A character of a string; quotation marks, backslashes and control
characters are escaped. -/
def escapeChar (character : Char) : CStr :=
  if character = '"' ∨ character = '\\' then ['\\', character]
  else if character.toNat < 0x20 then
    ['\\', 'u', '0', '0', lowerDigit (character.toNat / 16), lowerDigit (character.toNat % 16)]
  else [character]

def escapeText (text : CStr) : CStr :=
  text.flatMap escapeChar

theorem escapeText_cons (character : Char) (text : CStr) :
    escapeText (character :: text) = escapeChar character ++ escapeText text :=
  List.flatMap_cons

theorem length_escapeChar (character : Char) : (escapeChar character).length ≤ 6 := by
  unfold escapeChar
  split
  · simp
  · split <;> simp

theorem length_escapeText (text : CStr) : (escapeText text).length ≤ 6 * text.length := by
  induction text with
  | nil => exact Nat.zero_le _
  | cons character text ih =>
      have first := length_escapeChar character
      rw [escapeText_cons, List.length_append, List.length_cons]
      omega

theorem escapeChar_plain {byte : Char} (plain : isPlain byte = true) : escapeChar byte = [byte] := by
  simp only [isPlain, Bool.and_eq_true, bne_iff_ne, decide_eq_true_eq] at plain
  obtain ⟨⟨notQuote, notBackslash⟩, high⟩ := plain
  rw [escapeChar, if_neg (not_or.mpr ⟨notQuote, notBackslash⟩), if_neg (Nat.not_lt.mpr high)]

/-- Plain bytes are written as they are. -/
theorem escapeText_plain {text : CStr} (plain : text.all isPlain = true) :
    escapeText text = text := by
  induction text with
  | nil => rfl
  | cons byte text ih =>
      rw [List.all_cons, Bool.and_eq_true] at plain
      rw [escapeText_cons, escapeChar_plain plain.1, ih plain.2]
      rfl

theorem hexDigit?_lowerDigit {digit : Nat} (small : digit < 16) :
    hexDigit? (lowerDigit digit) = some digit := by
  have all : ∀ digit < 16, hexDigit? (lowerDigit digit) = some digit := by decide
  exact all digit small

theorem encode_ascii {byte : Char} (ascii : byte.toNat < 0x80) : encode byte.toNat = [byte] := by
  rw [encode, if_pos ascii, List.map_singleton, Char.ofNat_toNat]

/-- What is escaped is read as what it was. -/
theorem unit?_escapeChar {byte : Char} (special : isPlain byte = false) (rest : CStr) :
    unit? (escapeChar byte ++ rest) = some ([byte], rest) := by
  unfold escapeChar
  split
  · rename_i marked
    rcases marked with rfl | rfl <;> rfl
  · rename_i unmarked
    obtain ⟨notQuote, notBackslash⟩ := not_or.mp unmarked
    have control : byte.toNat < 0x20 := by
      rw [isPlain, bne_iff_ne.mpr notQuote, bne_iff_ne.mpr notBackslash] at special
      simpa using special
    have zero : hexDigit? '0' = some 0 := by decide
    have high := hexDigit?_lowerDigit (show byte.toNat / 16 < 16 by omega)
    have low := hexDigit?_lowerDigit (show byte.toNat % 16 < 16 by omega)
    have code : ((0 * 16 + 0) * 16 + byte.toNat / 16) * 16 + byte.toNat % 16 = byte.toNat := by omega
    have alone (text : CStr) : joined byte.toNat text = (byte.toNat, text) := by
      have never : ¬ 0xD800 ≤ byte.toNat := by omega
      simp [joined, never]
    rw [if_pos control]
    simp only [List.cons_append, List.nil_append, unit?, escape?, unicode?, codeUnit?, zero, high,
      low, Option.bind_eq_bind, Option.bind_some, Option.map_some, code, alone,
      encode_ascii (Nat.lt_trans control (by decide))]

/-- The bytes of a character behind the first one are not ASCII. -/
theorem isCharacter_tail {first : Char} {tail : CStr} (is : isCharacter (first :: tail) = true) :
    ∀ byte ∈ tail, 0x80 ≤ byte.toNat := by
  match tail, is with
  | [], _ => exact fun _ member => absurd member List.not_mem_nil
  | [b], is =>
      simp only [isCharacter, isTail, Bool.and_eq_true, decide_eq_true_eq] at is
      simp [is.2.1]
  | [b, c], is =>
      simp only [isCharacter, isTail, Bool.and_eq_true, decide_eq_true_eq] at is
      simp [is.1.2.1, is.2.1]
  | [b, c, d], is =>
      simp only [isCharacter, isTail, Bool.and_eq_true, decide_eq_true_eq] at is
      simp [is.1.1.2.1, is.1.2.1, is.2.1]
  | _ :: _ :: _ :: _ :: _, is => simp [isCharacter] at is

theorem Utf8.append {front behind : CStr} (first : Utf8 front) (second : Utf8 behind) :
    Utf8 (front ++ behind) := by
  induction first with
  | nil => exact second
  | cons is _ ih =>
      rw [List.append_assoc]
      exact .cons is ih

/-- A text can be split at a byte that is a character of its own. -/
theorem utf8_split {front behind : CStr} {byte : Char} (ascii : byte.toNat < 0x80) :
    Utf8 (front ++ byte :: behind) ↔ Utf8 front ∧ Utf8 behind := by
  constructor
  · intro utf8
    generalize whole : front ++ byte :: behind = text at utf8
    induction utf8 generalizing front with
    | nil => simp at whole
    | @cons character rest is utf8 ih =>
        rcases List.append_eq_append_iff.mp whole with ⟨middle, rfl, same⟩ | ⟨middle, rfl, same⟩
        · cases middle with
          | nil =>
              rw [List.append_nil] at is
              obtain ⟨-, others⟩ := @ih [] same
              exact ⟨by simpa using Utf8.cons is .nil, others⟩
          | cons first middle =>
              obtain ⟨rfl, rfl⟩ := List.cons.inj same
              cases front with
              | nil =>
                  cases middle with
                  | nil => exact ⟨.nil, utf8⟩
                  | cons second middle =>
                      have high := isCharacter_first is
                      simp at high
                      omega
              | cons head front =>
                  have high := isCharacter_tail is byte (by simp)
                  omega
        · obtain ⟨first, others⟩ := ih same.symm
          exact ⟨.cons is first, others⟩
  · rintro ⟨first, second⟩
    exact first.append (.cons (isCharacter_ascii ascii) second)
theorem isPlain_of_high {byte : Char} (high : 0x80 ≤ byte.toNat) : isPlain byte = true := by
  have notQuote : byte ≠ '"' := by
    rintro rfl
    exact absurd high (by decide)
  have notBackslash : byte ≠ '\\' := by
    rintro rfl
    exact absurd high (by decide)
  rw [isPlain, bne_iff_ne.mpr notQuote, bne_iff_ne.mpr notBackslash,
    decide_eq_true (Nat.le_trans (by decide) high)]
  rfl

/-- A character is one byte that may need an escape, or plain bytes. -/
theorem isCharacter_cases {character : CStr} (is : isCharacter character = true) :
    (∃ byte, character = [byte] ∧ isPlain byte = false) ∨ character.all isPlain = true := by
  obtain ⟨first, tail, rfl⟩ := List.exists_cons_of_ne_nil (isCharacter_ne_nil is)
  have high := isCharacter_tail is
  have plainTail : tail.all isPlain = true :=
    List.all_eq_true.mpr fun byte member => isPlain_of_high (high byte member)
  cases plain : isPlain first with
  | true =>
      right
      rw [List.all_cons, plain, plainTail]
      rfl
  | false =>
      left
      refine ⟨first, ?_, plain⟩
      cases tail with
      | nil => rfl
      | cons second more =>
          rcases isCharacter_first is with ⟨none_, -⟩ | ⟨-, low, -⟩ | ⟨-, low, -⟩ | ⟨-, low, -⟩
          · cases none_
          all_goals rw [isPlain_of_high (Nat.le_trans (by decide) low)] at plain; cases plain

theorem escapeText_append (front back : CStr) :
    escapeText (front ++ back) = escapeText front ++ escapeText back :=
  List.flatMap_append

theorem head?_escapeChar_ne_quote (byte : Char) (rest : CStr) :
    (escapeChar byte ++ rest).head? ≠ some '"' := by
  unfold escapeChar
  split
  · simp
  · rename_i unmarked
    split
    · simp
    · intro same
      exact unmarked (Or.inl (Option.some.inj same))

theorem head?_escapeChar_special {byte : Char} (special : isPlain byte = false) (rest : CStr) :
    (escapeChar byte ++ rest).head? = some '\\' := by
  unfold escapeChar
  split
  · rfl
  · rename_i unmarked
    obtain ⟨notQuote, notBackslash⟩ := not_or.mp unmarked
    rw [isPlain, bne_iff_ne.mpr notQuote, bne_iff_ne.mpr notBackslash] at special
    rw [if_pos (by simpa using special)]
    rfl

/-- An escaped text is read as the text. -/
theorem string?_escapeText {bound : Nat} {text : CStr} (utf8 : Utf8 text) (rest : CStr)
    (enough : text.length < bound) :
    string? bound (escapeText text ++ '"' :: rest) = some (text, rest) := by
  induction utf8 generalizing bound with
  | nil =>
      obtain ⟨bound, rfl⟩ : ∃ less, bound = less + 1 := ⟨bound - 1, by omega⟩
      rfl
  | @cons character behind is _ ih =>
      obtain ⟨bound, rfl⟩ : ∃ less, bound = less + 1 := ⟨bound - 1, by omega⟩
      have size := List.length_pos_iff.mpr (isCharacter_ne_nil is)
      rw [List.length_append] at enough
      rw [escapeText_append, List.append_assoc]
      rcases isCharacter_cases is with ⟨byte, rfl, special⟩ | plain
      · rw [escapeText_cons, List.append_assoc, string?_other (head?_escapeChar_ne_quote _ _),
          unit?_escapeChar special, Option.bind_some]
        show (string? bound (escapeText behind ++ '"' :: rest)).map _ = _
        rw [ih (by omega), Option.map_some]
      · rw [escapeText_plain plain, string?_character is plain, ih (by omega), Option.map_some]

/-- High bytes at the front of an escaped text are the front of the text. -/
theorem front_of_escapeText {text high behind rest : CStr} (bytes : ∀ byte ∈ high, 0x80 ≤ byte.toNat)
    (same : escapeText text ++ '"' :: rest = high ++ behind) :
    ∃ more, text = high ++ more ∧ behind = escapeText more ++ '"' :: rest := by
  induction high generalizing text with
  | nil => exact ⟨text, rfl, same.symm⟩
  | cons first high ih =>
      obtain ⟨firstHigh, others⟩ := List.forall_mem_cons.mp bytes
      cases text with
      | nil =>
          cases same
          exact absurd firstHigh (by decide)
      | cons byte text =>
          rw [escapeText_cons, List.append_assoc, List.cons_append] at same
          cases plain : isPlain byte with
          | false =>
              have marked := head?_escapeChar_special plain (escapeText text ++ '"' :: rest)
              rw [same, List.head?_cons] at marked
              rw [Option.some.inj marked] at firstHigh
              exact absurd firstHigh (by decide)
          | true =>
              rw [escapeChar_plain plain] at same
              obtain ⟨rfl, rest_⟩ := List.cons.inj same
              obtain ⟨more, rfl, left_⟩ := ih others rest_
              exact ⟨more, rfl, left_⟩

/-- A text that is not in UTF-8 is not made readable by escapes. -/
theorem utf8_of_string? {bound : Nat} {text rest : CStr} {read : CStr × CStr}
    (found : string? bound (escapeText text ++ '"' :: rest) = some read) : Utf8 text := by
  generalize size : text.length = n
  induction n using Nat.strongRecOn generalizing bound text read with
  | ind n ih =>
    cases text with
    | nil => exact .nil
    | cons byte text =>
        obtain ⟨bound, rfl⟩ : ∃ less, bound = less + 1 := by
          cases bound with
          | zero => cases found
          | succ less => exact ⟨less, rfl⟩
        rw [escapeText_cons, List.append_assoc, string?_other (head?_escapeChar_ne_quote _ _)] at found
        obtain ⟨⟨unit, behind⟩, first, others⟩ := Option.bind_eq_some_iff.mp found
        obtain ⟨units, last, -⟩ := Option.map_eq_some_iff.mp others
        cases plain : isPlain byte with
        | false =>
            rw [unit?_escapeChar plain] at first
            cases first
            have is : isCharacter [byte] = true := by
              simp only [isPlain, Bool.and_eq_false_iff, bne_eq_false_iff_eq,
                decide_eq_false_iff_not] at plain
              rw [isCharacter, decide_eq_true_eq]
              rcases plain with (rfl | rfl) | low
              · decide
              · decide
              · omega
            have rest_ := @ih text.length (by rw [← size]; exact Nat.lt_succ_self _) bound text units
              last rfl
            exact .cons is rest_
        | true =>
            have notBackslash : (escapeChar byte ++ (escapeText text ++ '"' :: rest)).head? ≠ some '\\' := by
              rw [escapeChar_plain plain]
              intro same
              cases same
              exact absurd plain (by decide)
            rw [unit?_other notBackslash, escapeChar_plain plain] at first
            obtain ⟨character, -⟩ := Option.filter_eq_some_iff.mp first
            obtain ⟨is, split⟩ := character?_eq_some character
            obtain ⟨head, tail, rfl⟩ := List.exists_cons_of_ne_nil
              (show unit ≠ [] by rintro rfl; cases is)
            rw [List.singleton_append, List.cons_append] at split
            obtain ⟨rfl, behindFirst⟩ := List.cons.inj split
            obtain ⟨more, rfl, rfl⟩ := front_of_escapeText (isCharacter_tail is) behindFirst
            have rest_ := @ih more.length (by
              rw [← size, List.length_cons, List.length_append]
              omega) bound more units last rfl
            exact .cons is rest_

/-- A number ends in front of this text. -/
def Stops (rest : CStr) : Prop :=
  ∀ byte ∈ rest.head?, byte.isDigit = false ∧ byte ≠ '.' ∧ byte ≠ 'e' ∧ byte ≠ 'E'

theorem stops_cons {byte : Char} (rest : CStr)
    (stops : byte.isDigit = false ∧ byte ≠ '.' ∧ byte ≠ 'e' ∧ byte ≠ 'E') : Stops (byte :: rest) := by
  intro other member
  rw [List.head?_cons, Option.mem_some] at member
  rw [← member]
  exact stops

theorem stops_comma (rest : CStr) : Stops (',' :: rest) :=
  stops_cons rest (by decide)

theorem stops_bracket (rest : CStr) : Stops (']' :: rest) :=
  stops_cons rest (by decide)

theorem stops_brace (rest : CStr) : Stops ('}' :: rest) :=
  stops_cons rest (by decide)

/-- A part that is read as a value if it is good, whatever the value is
followed by, and is not read at all otherwise. -/
structure Settled (text : CStr) (good : Prop) : Prop where
  begins : ∃ first more, text = first :: more ∧ isBlank first = false ∧ first ≠ ']'
  reads : good → ∃ bound value, ∀ rest, Stops rest →
    value? bound (text ++ rest) = some (value, rest)
  stuck : ¬ good → ∀ bound rest, value? bound (text ++ rest) = none

theorem Settled.skip {text : CStr} {good : Prop} (settled : Settled text good) (rest : CStr) :
    skip (text ++ rest) = text ++ rest := by
  obtain ⟨first, more, rfl, blank, -⟩ := settled.begins
  rw [List.cons_append, Json.skip, List.dropWhile_cons_of_neg (by rw [blank]; exact Bool.false_ne_true)]

theorem Settled.congr {text : CStr} {good other : Prop} (settled : Settled text good)
    (same : good ↔ other) : Settled text other :=
  propext same ▸ settled

/-- What a good part is read as does not depend on the bound. -/
theorem Settled.unique {text : CStr} {good : Prop} (settled : Settled text good) (is : good) :
    ∃ value, ∀ rest, Stops rest → ∀ bound read, value? bound (text ++ rest) = some read →
      read = (value, rest) := by
  obtain ⟨enough, value, reads⟩ := settled.reads is
  refine ⟨value, fun rest stops bound read found => ?_⟩
  have one := value?_mono found (Nat.le_max_left bound enough)
  have two := value?_mono (reads rest stops) (Nat.le_max_right bound enough)
  exact Option.some.inj (one.symm.trans two)

/-- A text is in JSON if and only if the part that it is, up to blanks, is good. -/
theorem Settled.denotes_iff {text tail : CStr} {good : Prop} (settled : Settled text good)
    (blank : Json.skip tail = []) : (∃ value, Denotes (text ++ tail) value) ↔ good := by
  constructor
  · rintro ⟨value, bound, rest, read, -⟩
    by_contra bad
    rw [settled.skip, settled.stuck bad] at read
    cases read
  · intro is
    obtain ⟨bound, value, reads⟩ := settled.reads is
    refine ⟨value, bound, tail, ?_, blank⟩
    rw [settled.skip]
    apply reads
    intro byte member
    obtain ⟨more, rfl⟩ := List.head?_eq_some_iff.mp member
    have blanks : isBlank byte = true := by
      by_contra other
      rw [Json.skip, List.dropWhile_cons_of_neg other] at blank
      cases blank
    simp only [isBlank, Bool.or_eq_true, beq_iff_eq] at blanks
    rcases blanks with ((rfl | rfl) | rfl) | rfl <;> decide

theorem settled_null : Settled ['n', 'u', 'l', 'l'] True where
  begins := ⟨'n', _, rfl, rfl, by decide⟩
  reads _ := ⟨1, .null, fun _ _ => rfl⟩
  stuck bad := absurd trivial bad

/-- An escaped text in quotation marks. -/
theorem settled_string (text : CStr) : Settled ('"' :: (escapeText text ++ ['"'])) (Utf8 text) where
  begins := ⟨'"', _, rfl, rfl, by decide⟩
  reads utf8 := by
    refine ⟨text.length + 2, .str text, fun rest _ => ?_⟩
    have read := string?_escapeText utf8 rest (Nat.lt_succ_self _)
    rw [List.cons_append, List.append_assoc, List.singleton_append]
    show (string? (text.length + 1) (escapeText text ++ '"' :: rest)).map _ = _
    rw [read, Option.map_some]
  stuck bad bound rest := by
    cases bound with
    | zero => rfl
    | succ bound =>
        rw [List.cons_append, List.append_assoc, List.singleton_append]
        show (string? bound (escapeText text ++ '"' :: rest)).map _ = _
        cases found : string? bound (escapeText text ++ '"' :: rest) with
        | none => rfl
        | some read => exact absurd (utf8_of_string? found) bad

/-- What begins like a number is read as one. -/
theorem value?_number {first : Char} (begins : first.isDigit = true ∨ first = '-') (bound : Nat)
    (text : CStr) : value? (bound + 1) (first :: text) =
      (number? (first :: text)).map fun read => (.num read.1, read.2) := by
  have other (special : Char) (unlike : special.isDigit = false ∧ special ≠ '-') :
      first ≠ special := by
    rintro rfl
    rcases begins with digit | minus
    · cases digit.symm.trans unlike.1
    · exact unlike.2 minus
  rw [value?.eq_def]
  dsimp only
  split
  · rename_i same
    cases same
    exact absurd rfl (other '"' (by decide))
  · rename_i same
    cases same
    exact absurd rfl (other '[' (by decide))
  · rename_i same
    cases same
    exact absurd rfl (other '{' (by decide))
  · rename_i same
    cases same
    exact absurd rfl (other 'n' (by decide))
  · rename_i same
    cases same
    exact absurd rfl (other 't' (by decide))
  · rename_i same
    cases same
    exact absurd rfl (other 'f' (by decide))
  · rfl

/-- A numeral: what is read as a number of this spelling. -/
theorem settled_number {first : Char} {more : CStr} (begins : first.isDigit = true ∨ first = '-')
    (reads : ∀ rest, Stops rest → number? (first :: (more ++ rest)) = some (first :: more, rest)) :
    Settled (first :: more) True where
  begins := by
    refine ⟨first, more, rfl, ?_, ?_⟩
    · rcases begins with digit | rfl
      · cases blank : isBlank first with
        | false => rfl
        | true =>
            simp only [isBlank, Bool.or_eq_true, beq_iff_eq] at blank
            rcases blank with ((rfl | rfl) | rfl) | rfl <;> revert digit <;> decide
      · rfl
    · rintro rfl
      revert begins
      decide
  reads _ := by
    refine ⟨1, .num (first :: more), fun rest stops => ?_⟩
    rw [List.cons_append, value?_number begins, reads rest stops, Option.map_some]
  stuck bad := absurd trivial bad

open CString

theorem decimal_zero : decimal 0 = ['0'] :=
  rfl

/-- A number that is not zero is written without a leading zero. -/
theorem decimal_first {n : Nat} (positive : 0 < n) :
    ∃ first more, decimal n = first :: more ∧ first ≠ '0' := by
  induction n using Nat.strongRecOn with
  | ind n ih =>
    by_cases small : n < 10
    · have all : ∀ digit < 10, 0 < digit → digit.digitChar ≠ '0' := by decide
      exact ⟨n.digitChar, [], Nat.toDigits_of_lt_base small, all n small positive⟩
    · obtain ⟨first, more, digits, notZero⟩ := ih (n / 10) (by omega) (by omega)
      refine ⟨first, more ++ [(n % 10).digitChar], ?_, notZero⟩
      have longer : decimal n = decimal (n / 10) ++ [(n % 10).digitChar] :=
        Nat.toDigits_of_base_le (by decide) (by omega)
      rw [longer, digits, List.cons_append]

/-- The digits at the front of a text. -/
theorem digits?_decimal (n : Nat) {tail : CStr} (ends : EndsNumeral tail) :
    digits? (decimal n ++ tail) = some (decimal n, tail) := by
  obtain ⟨taken, dropped⟩ := takeWhile_digits n ends
  rw [digits?, taken, dropped, if_neg (by simpa using decimal_ne_nil n)]

/-- The parts of a number, with a sign or without one. -/
theorem number?_decimal {sign : CStr} (signs : sign = [] ∨ sign = ['-']) (n : Nat)
    {tail fraction rest : CStr} (ends : EndsNumeral tail)
    (point : part? ['.'] [] tail = some (fraction, rest))
    (exponent : part? ['e', 'E'] ['+', '-'] rest = some ([], rest)) :
    number? (sign ++ (decimal n ++ tail)) = some (sign ++ decimal n ++ fraction, rest) := by
  by_cases zero : n = 0
  · subst zero
    rw [decimal_zero]
    rcases signs with rfl | rfl <;> simp [number?, point, exponent]
  · obtain ⟨first, more, digits, notZero⟩ := decimal_first (Nat.pos_of_ne_zero zero)
    have isDigit : first.isDigit = true :=
      @isDigit_decimal n first (digits ▸ List.mem_cons_self)
    have notMinus : first ≠ '-' := by
      rintro rfl
      cases isDigit
    have read := digits?_decimal n ends
    rw [digits, List.cons_append] at read ⊢
    rcases signs with rfl | rfl <;> simp [number?, notZero, notMinus, read, point, exponent]

theorem part?_stops {begins signs : List Char} {rest : CStr}
    (other : ∀ byte ∈ rest.head?, begins.contains byte = false) :
    part? begins signs rest = some ([], rest) := by
  cases rest with
  | nil => rfl
  | cons byte rest =>
      rw [part?.eq_def]
      dsimp only
      rw [other byte rfl, if_neg Bool.false_ne_true]

theorem Stops.endsNumeral {rest : CStr} (stops : Stops rest) : EndsNumeral rest :=
  fun byte member => (stops byte member).1

theorem Stops.exponent {rest : CStr} (stops : Stops rest) :
    part? ['e', 'E'] ['+', '-'] rest = some ([], rest) := by
  apply part?_stops
  intro byte member
  obtain ⟨-, -, notLower, notUpper⟩ := stops byte member
  simp [notLower, notUpper]

theorem Stops.fraction {rest : CStr} (stops : Stops rest) :
    part? ['.'] [] rest = some ([], rest) := by
  apply part?_stops
  intro byte member
  obtain ⟨-, notPoint, -⟩ := stops byte member
  simp [notPoint]

/-- A number that is printed with its sign in front. -/
theorem settled_signed {sign : CStr} (signs : sign = [] ∨ sign = ['-']) (n : Nat)
    {fraction : CStr}
    (reads : ∀ rest, Stops rest →
      number? (sign ++ (decimal n ++ (fraction ++ rest))) = some (sign ++ decimal n ++ fraction, rest)) :
    Settled (sign ++ decimal n ++ fraction) True := by
  obtain ⟨first, more, digits⟩ := List.exists_cons_of_ne_nil (decimal_ne_nil n)
  have isDigit : first.isDigit = true := @isDigit_decimal n first (digits ▸ List.mem_cons_self)
  rw [digits] at reads ⊢
  rcases signs with rfl | rfl
  · apply settled_number (Or.inl isDigit)
    intro rest stops
    simpa using reads rest stops
  · apply settled_number (Or.inr rfl)
    intro rest stops
    simpa using reads rest stops

/-- `%d`. -/
theorem settled_decimalInt (i : Int) : Settled (decimalInt i) True := by
  have sign : ∃ sign : CStr, (sign = [] ∨ sign = ['-']) ∧ decimalInt i = sign ++ decimal i.natAbs := by
    unfold decimalInt
    split
    · exact ⟨['-'], Or.inr rfl, rfl⟩
    · exact ⟨[], Or.inl rfl, rfl⟩
  obtain ⟨sign, signs, written⟩ := sign
  have settled := @settled_signed sign signs i.natAbs [] fun rest stops => by
    rw [List.append_nil]
    have read := number?_decimal signs i.natAbs stops.endsNumeral stops.fraction stops.exponent
    rwa [List.append_nil] at read
  rw [written]
  rwa [List.append_nil] at settled

/-- `%u`. -/
theorem settled_decimal (n : Nat) : Settled (decimal n) True :=
  settled_decimalInt (n : Int)

/-- `%.1f`, once it is rounded. -/
theorem settled_tenths {sign : CStr} (signs : sign = [] ∨ sign = ['-']) (n : Nat) {digit : Char}
    (isDigit : digit.isDigit = true) : Settled (sign ++ decimal n ++ ['.', digit]) True := by
  apply settled_signed signs
  intro rest stops
  apply number?_decimal signs n (endsNumeral_cons (by decide) _) _ stops.exponent
  have digits : digits? (digit :: rest) = some ([digit], rest) := by
    have taken : (digit :: rest).takeWhile Char.isDigit = [digit] := by
      rw [List.takeWhile_cons_of_pos isDigit]
      cases rest with
      | nil => rfl
      | cons byte rest =>
          have notDigit := stops.endsNumeral byte rfl
          rw [List.takeWhile_cons_of_neg (by rw [notDigit]; exact Bool.false_ne_true)]
    have dropped : (digit :: rest).dropWhile Char.isDigit = rest := by
      rw [List.dropWhile_cons_of_pos isDigit]
      cases rest with
      | nil => rfl
      | cons byte rest =>
          have notDigit := stops.endsNumeral byte rfl
          rw [List.dropWhile_cons_of_neg (by rw [notDigit]; exact Bool.false_ne_true)]
    rw [digits?, taken, dropped]
    rfl
  show (digits? (digit :: rest)).map _ = _
  rw [digits, Option.map_some]

/-- What `%.1f` prints for something that is no number is not read. -/
theorem settled_unnumbered {text : CStr}
    (is : text ∈ ["nan".toList, "-nan".toList, "inf".toList, "-inf".toList]) : Settled text False := by
  have listed : text = ['n', 'a', 'n'] ∨ text = ['-', 'n', 'a', 'n'] ∨ text = ['i', 'n', 'f'] ∨
      text = ['-', 'i', 'n', 'f'] := by
    simpa using is
  have stuck (bound : Nat) (rest : CStr) : value? bound (text ++ rest) = none := by
    cases bound with
    | zero => rfl
    | succ bound => rcases listed with rfl | rfl | rfl | rfl <;> rfl
  have begins : ∃ first more, text = first :: more ∧ isBlank first = false ∧ first ≠ ']' := by
    rcases listed with rfl | rfl | rfl | rfl <;> exact ⟨_, _, rfl, rfl, by decide⟩
  exact ⟨begins, False.elim, fun _ => stuck⟩

/-- An element of an array, and when it is good. -/
structure Part where
  text : CStr
  good : Prop

structure Field extends Part where
  name : CStr

def commas : List CStr → CStr
  | [] => []
  | [text] => text
  | text :: next :: texts => text ++ ',' :: commas (next :: texts)

theorem commas_cons (text : CStr) (texts : List CStr) :
    commas (text :: texts) = text ++ texts.flatMap fun next => ',' :: next := by
  induction texts generalizing text with
  | nil => exact (List.append_nil _).symm
  | cons next texts ih => rw [commas, ih, List.flatMap_cons, List.cons_append]

theorem length_commas (texts : List CStr) :
    (commas texts).length ≤ (texts.map fun text => text.length + 1).sum := by
  cases texts with
  | nil => exact Nat.zero_le _
  | cons text texts =>
      rw [commas_cons, List.length_append, List.length_flatMap, List.map_cons, List.sum_cons]
      exact Nat.add_le_add (Nat.le_succ _) (Nat.le_refl _)

def Field.written (field : Field) : CStr :=
  '"' :: (field.name ++ '"' :: ':' :: field.text)

theorem members?_mono {bound larger : Nat} {text : CStr} {read : List (CStr × Json) × CStr}
    (found : members? bound text = some read) (le : bound ≤ larger) :
    members? larger text = some read := by
  induction le with
  | refl => exact found
  | step _ ih => exact (read_succ _).2.2 _ _ ih

/-- An element and what is behind it. -/
theorem elements?_settled {part : Part} (settled : Settled part.text part.good) (bound : Nat)
    (tail : CStr) : elements? (bound + 1) (part.text ++ tail) =
      (value? bound (part.text ++ tail)).bind fun value =>
        match skip value.2 with
        | ',' :: text => (elements? bound text).map fun read => (value.1 :: read.1, read.2)
        | ']' :: text => some ([value.1], text)
        | _ => none := by
  exact congrArg (fun text => (value? bound text).bind _) (settled.skip tail)

/-- A member and what is behind it. -/
theorem members?_settled {field : Field} (verbatim : Verbatim field.name)
    (settled : Settled field.text field.good) {bound : Nat} (enough : field.name.length < bound)
    (tail : CStr) : members? (bound + 1) (field.written ++ tail) =
      (value? bound (field.text ++ tail)).bind fun value =>
        match skip value.2 with
        | ',' :: text =>
            (members? bound text).map fun read => ((field.name, value.1) :: read.1, read.2)
        | '}' :: text => some ([(field.name, value.1)], text)
        | _ => none := by
  have written : field.written ++ tail =
      '"' :: (field.name ++ '"' :: ':' :: (field.text ++ tail)) := by
    simp only [Field.written, List.cons_append, List.append_assoc]
  have quote : skip ('"' :: (field.name ++ '"' :: ':' :: (field.text ++ tail))) =
      '"' :: (field.name ++ '"' :: ':' :: (field.text ++ tail)) := rfl
  have colon : skip (':' :: (field.text ++ tail)) = ':' :: (field.text ++ tail) := rfl
  have named := string?_verbatim verbatim (':' :: (field.text ++ tail)) enough
  rw [written, members?, quote]
  simp only [named, Option.bind_some, colon]
  exact congrArg (fun text => (value? bound text).bind _) (settled.skip tail)

/-- The elements are read if all of them are good. -/
theorem elements?_commas {parts : List Part} (nonempty : parts ≠ [])
    (settled : ∀ part ∈ parts, Settled part.text part.good)
    (good : ∀ part ∈ parts, part.good) : ∃ bound values, ∀ rest,
      elements? bound (commas (parts.map Part.text) ++ ']' :: rest) = some (values, rest) := by
  induction parts with
  | nil => exact absurd rfl nonempty
  | cons part parts ih =>
      obtain ⟨first, others⟩ := List.forall_mem_cons.mp settled
      obtain ⟨is, are⟩ := List.forall_mem_cons.mp good
      obtain ⟨enough, value, reads⟩ := first.reads is
      cases parts with
      | nil =>
          refine ⟨enough + 1, [value], fun rest => ?_⟩
          show elements? (enough + 1) (part.text ++ ']' :: rest) = _
          rw [elements?_settled first, reads _ (stops_bracket rest)]
          rfl
      | cons next parts =>
          obtain ⟨more, values, readsMore⟩ := ih (List.cons_ne_nil _ _) others are
          refine ⟨max enough more + 1, value :: values, fun rest => ?_⟩
          have here := value?_mono
            (reads (',' :: (commas ((next :: parts).map Part.text) ++ ']' :: rest)) (stops_comma _))
            (Nat.le_max_left enough more)
          have behind := elements?_mono (readsMore rest) (Nat.le_max_right enough more)
          have written : commas ((part :: next :: parts).map Part.text) ++ ']' :: rest =
              part.text ++ ',' :: (commas ((next :: parts).map Part.text) ++ ']' :: rest) := by
            simp only [List.map_cons, commas, List.append_assoc, List.cons_append]
          rw [written, elements?_settled first, here, Option.bind_some]
          show (elements? (max enough more)
            (commas ((next :: parts).map Part.text) ++ ']' :: rest)).map _ = _
          rw [behind, Option.map_some]

/-- If they are read, all of them are good. -/
theorem good_of_elements? {parts : List Part}
    (settled : ∀ part ∈ parts, Settled part.text part.good) {bound : Nat} {rest : CStr}
    {read : List Json × CStr}
    (found : elements? bound (commas (parts.map Part.text) ++ ']' :: rest) = some read) :
    ∀ part ∈ parts, part.good := by
  induction parts generalizing bound read with
  | nil => exact fun _ member => absurd member List.not_mem_nil
  | cons part parts ih =>
      obtain ⟨first, others⟩ := List.forall_mem_cons.mp settled
      obtain ⟨bound, rfl⟩ : ∃ less, bound = less + 1 := by
        cases bound with
        | zero => cases found
        | succ less => exact ⟨less, rfl⟩
      rw [List.forall_mem_cons]
      cases parts with
      | nil =>
          refine ⟨?_, fun _ member => absurd member List.not_mem_nil⟩
          have found : elements? (bound + 1) (part.text ++ ']' :: rest) = some read := found
          rw [elements?_settled first] at found
          obtain ⟨value, here, -⟩ := Option.bind_eq_some_iff.mp found
          by_contra bad
          rw [first.stuck bad] at here
          cases here
      | cons next parts =>
          have written : commas ((part :: next :: parts).map Part.text) ++ ']' :: rest =
              part.text ++ ',' :: (commas ((next :: parts).map Part.text) ++ ']' :: rest) := by
            simp only [List.map_cons, commas, List.append_assoc, List.cons_append]
          rw [written, elements?_settled first] at found
          obtain ⟨value, here, behind⟩ := Option.bind_eq_some_iff.mp found
          by_cases is : part.good
          · refine ⟨is, ?_⟩
            obtain ⟨_, unique⟩ := first.unique is
            cases unique _ (stops_comma _) _ _ here
            have behind : (elements? bound
                (commas ((next :: parts).map Part.text) ++ ']' :: rest)).map _ = some read := behind
            obtain ⟨more, readMore, -⟩ := Option.map_eq_some_iff.mp behind
            exact ih others readMore
          · rw [first.stuck is] at here
            cases here

/-- An array is good if its elements are. -/
theorem settled_array {parts : List Part}
    (settled : ∀ part ∈ parts, Settled part.text part.good) :
    Settled ('[' :: (commas (parts.map Part.text) ++ [']'])) (∀ part ∈ parts, part.good) := by
  have written (rest : CStr) : '[' :: (commas (parts.map Part.text) ++ [']']) ++ rest =
      '[' :: (commas (parts.map Part.text) ++ ']' :: rest) := by
    rw [List.cons_append, List.append_assoc, List.singleton_append]
  -- An element does not begin like the end of an array.
  have inner (nonempty : parts ≠ []) (bound : Nat) (rest : CStr) :
      value? (bound + 1) ('[' :: (commas (parts.map Part.text) ++ ']' :: rest)) =
        (elements? bound (commas (parts.map Part.text) ++ ']' :: rest)).map fun read =>
          (.arr read.1, read.2) := by
    obtain ⟨part, others, rfl⟩ := List.exists_cons_of_ne_nil nonempty
    have first := settled part List.mem_cons_self
    obtain ⟨byte, more, text, blank, open_⟩ := first.begins
    obtain ⟨behind, front⟩ : ∃ behind, commas ((part :: others).map Part.text) = part.text ++ behind := by
      cases others with
      | nil => exact ⟨[], (List.append_nil _).symm⟩
      | cons next others => exact ⟨_, rfl⟩
    rw [front, List.append_assoc, value?]
    · rw [first.skip, text]
      split
      · rename_i close
        cases close
        exact absurd rfl open_
      · rfl
  refine ⟨⟨'[', _, rfl, rfl, by decide⟩, ?_, ?_⟩
  · intro good
    by_cases nonempty : parts = []
    · subst nonempty
      exact ⟨1, .arr [], fun rest _ => rfl⟩
    · obtain ⟨bound, values, reads⟩ := elements?_commas nonempty settled good
      refine ⟨bound + 1, .arr values, fun rest _ => ?_⟩
      rw [written, inner nonempty, reads, Option.map_some]
  · intro bad bound rest
    have nonempty : parts ≠ [] := by
      rintro rfl
      exact bad fun _ member => absurd member List.not_mem_nil
    cases bound with
    | zero => rfl
    | succ bound =>
        rw [written, inner nonempty]
        cases found : elements? bound (commas (parts.map Part.text) ++ ']' :: rest) with
        | none => rfl
        | some read => exact absurd (good_of_elements? settled found) bad

/-- A name that stands for itself, and a part that is settled. -/
def Field.Settled (field : Field) : Prop :=
  Verbatim field.name ∧ Json.Settled field.text field.good

/-- A name that needs no escapes. -/
def isName (text : CStr) : Bool :=
  text.all fun byte => isPlain byte && byte.toNat < 0x80

theorem verbatim_of_isName {text : CStr} (is : isName text = true) : Verbatim text := by
  apply verbatim_of_ascii
  intro byte member
  have each := List.all_eq_true.mp is byte member
  rwa [Bool.and_eq_true, decide_eq_true_eq] at each

/-- `%u`. -/
def Field.nat (name : CStr) (n : Nat) : Field :=
  ⟨⟨decimal n, True⟩, name⟩

/-- `%d`. -/
def Field.int (name : CStr) (i : Int) : Field :=
  ⟨⟨decimalInt i, True⟩, name⟩

def Field.string (name text : CStr) : Field :=
  ⟨⟨'"' :: (escapeText text ++ ['"']), Utf8 text⟩, name⟩

theorem Field.Settled.nat {name : CStr} (is : isName name = true) (n : Nat) :
    (Field.nat name n).Settled :=
  ⟨verbatim_of_isName is, settled_decimal n⟩

theorem Field.Settled.int {name : CStr} (is : isName name = true) (i : Int) :
    (Field.int name i).Settled :=
  ⟨verbatim_of_isName is, settled_decimalInt i⟩

theorem Field.Settled.string {name : CStr} (is : isName name = true) (text : CStr) :
    (Field.string name text).Settled :=
  ⟨verbatim_of_isName is, Json.settled_string text⟩

theorem members?_commas {fields : List Field} (nonempty : fields ≠ [])
    (settled : ∀ field ∈ fields, field.Settled) (good : ∀ field ∈ fields, field.good) :
    ∃ bound members, ∀ rest,
      members? bound (commas (fields.map Field.written) ++ '}' :: rest) = some (members, rest) := by
  induction fields with
  | nil => exact absurd rfl nonempty
  | cons field fields ih =>
      obtain ⟨⟨verbatim, first⟩, others⟩ := List.forall_mem_cons.mp settled
      obtain ⟨is, are⟩ := List.forall_mem_cons.mp good
      obtain ⟨enough, value, reads⟩ := first.reads is
      cases fields with
      | nil =>
          refine ⟨max enough (field.name.length + 1) + 1, [(field.name, value)], fun rest => ?_⟩
          have here := value?_mono (reads _ (stops_brace rest))
            (Nat.le_max_left enough (field.name.length + 1))
          show members? _ (field.written ++ '}' :: rest) = _
          rw [members?_settled verbatim first (by omega), here]
          rfl
      | cons next fields =>
          obtain ⟨more, members, readsMore⟩ := ih (List.cons_ne_nil _ _) others are
          refine ⟨max (max enough more) (field.name.length + 1) + 1,
            (field.name, value) :: members, fun rest => ?_⟩
          have here := value?_mono
            (reads (',' :: (commas ((next :: fields).map Field.written) ++ '}' :: rest))
              (stops_comma _))
            (show enough ≤ max (max enough more) (field.name.length + 1) by omega)
          have behind := members?_mono (readsMore rest)
            (show more ≤ max (max enough more) (field.name.length + 1) by omega)
          have written : commas ((field :: next :: fields).map Field.written) ++ '}' :: rest =
              field.written ++ ',' :: (commas ((next :: fields).map Field.written) ++ '}' :: rest) := by
            simp only [List.map_cons, commas, List.append_assoc, List.cons_append]
          rw [written, members?_settled verbatim first (by omega), here, Option.bind_some]
          show (members? _ (commas ((next :: fields).map Field.written) ++ '}' :: rest)).map _ = _
          rw [behind, Option.map_some]

theorem good_of_members? {fields : List Field} (settled : ∀ field ∈ fields, field.Settled)
    {bound : Nat} {rest : CStr} {read : List (CStr × Json) × CStr}
    (found : members? bound (commas (fields.map Field.written) ++ '}' :: rest) = some read) :
    ∀ field ∈ fields, field.good := by
  induction fields generalizing bound read with
  | nil => exact fun _ member => absurd member List.not_mem_nil
  | cons field fields ih =>
      obtain ⟨⟨verbatim, first⟩, others⟩ := List.forall_mem_cons.mp settled
      have found := members?_mono found (Nat.le_add_right bound (field.name.length + 2))
      have enough : field.name.length < bound + (field.name.length + 1) := by omega
      rw [List.forall_mem_cons]
      cases fields with
      | nil =>
          refine ⟨?_, fun _ member => absurd member List.not_mem_nil⟩
          have found : members? (bound + (field.name.length + 1) + 1)
              (field.written ++ '}' :: rest) = some read := found
          rw [members?_settled verbatim first enough] at found
          obtain ⟨value, here, -⟩ := Option.bind_eq_some_iff.mp found
          by_contra bad
          rw [first.stuck bad] at here
          cases here
      | cons next fields =>
          have written : commas ((field :: next :: fields).map Field.written) ++ '}' :: rest =
              field.written ++ ',' :: (commas ((next :: fields).map Field.written) ++ '}' :: rest) := by
            simp only [List.map_cons, commas, List.append_assoc, List.cons_append]
          rw [written] at found
          have found : members? (bound + (field.name.length + 1) + 1) (field.written ++ ',' ::
              (commas ((next :: fields).map Field.written) ++ '}' :: rest)) = some read := found
          rw [members?_settled verbatim first enough] at found
          obtain ⟨value, here, behind⟩ := Option.bind_eq_some_iff.mp found
          by_cases is : field.good
          · refine ⟨is, ?_⟩
            obtain ⟨_, unique⟩ := first.unique is
            cases unique _ (stops_comma _) _ _ here
            have behind : (members? (bound + (field.name.length + 1))
                (commas ((next :: fields).map Field.written) ++ '}' :: rest)).map _ = some read :=
              behind
            obtain ⟨more, readMore, -⟩ := Option.map_eq_some_iff.mp behind
            exact ih others readMore
          · rw [first.stuck is] at here
            cases here

/-- The text of an object. -/
def object (fields : List Field) : CStr :=
  '{' :: (commas (fields.map Field.written) ++ ['}'])

/-- An object is good if its fields are. -/
theorem settled_object {fields : List Field} (nonempty : fields ≠ [])
    (settled : ∀ field ∈ fields, field.Settled) :
    Settled (object fields) (∀ field ∈ fields, field.good) := by
  have written (rest : CStr) : object fields ++ rest =
      '{' :: (commas (fields.map Field.written) ++ '}' :: rest) := by
    rw [object, List.cons_append, List.append_assoc, List.singleton_append]
  have inner (bound : Nat) (rest : CStr) :
      value? (bound + 1) ('{' :: (commas (fields.map Field.written) ++ '}' :: rest)) =
        (members? bound (commas (fields.map Field.written) ++ '}' :: rest)).map fun read =>
          (.obj read.1, read.2) := by
    obtain ⟨field, others, rfl⟩ := List.exists_cons_of_ne_nil nonempty
    obtain ⟨behind, front⟩ :
        ∃ behind, commas ((field :: others).map Field.written) = '"' :: behind := by
      cases others <;> exact ⟨_, rfl⟩
    rw [front]
    rfl
  refine ⟨⟨'{', _, rfl, rfl, by decide⟩, ?_, ?_⟩
  · intro good
    obtain ⟨bound, members, reads⟩ := members?_commas nonempty settled good
    refine ⟨bound + 1, .obj members, fun rest _ => ?_⟩
    rw [written, inner, reads, Option.map_some]
  · intro bad bound rest
    cases bound with
    | zero => rfl
    | succ bound =>
        rw [written, inner]
        cases found : members? bound (commas (fields.map Field.written) ++ '}' :: rest) with
        | none => rfl
        | some read => exact absurd (good_of_members? settled found) bad

/-- An object with one text is read as it was written. -/
theorem denotes_string {name text tail : CStr} (verbatim : Verbatim name) (utf8 : Utf8 text)
    (blank : Json.skip tail = []) :
    Denotes (object [.string name text] ++ tail) (.obj [(name, .str text)]) := by
  have enough : name.length < name.length + text.length + 2 := by omega
  have verbatimField : Verbatim (Field.string name text).name := verbatim
  have member := members?_settled verbatimField (settled_string text) enough ('}' :: tail)
  have value : value? (name.length + text.length + 2) ((Field.string name text).text ++ '}' :: tail) =
      some (.str text, '}' :: tail) := by
    have short : text.length < name.length + text.length + 1 := by omega
    have read := string?_escapeText utf8 ('}' :: tail) short
    rw [Field.string, List.cons_append, List.append_assoc, List.singleton_append]
    show (string? _ (escapeText text ++ '"' :: '}' :: tail)).map _ = _
    rw [read, Option.map_some]
  rw [value, Option.bind_some] at member
  have written : object [.string name text] ++ tail =
      '{' :: ((Field.string name text).written ++ '}' :: tail) := by
    rw [object, List.cons_append, List.append_assoc, List.singleton_append]
    rfl
  refine ⟨name.length + text.length + 4, tail, ?_, blank⟩
  rw [written]
  show (members? (name.length + text.length + 2 + 1)
    ((Field.string name text).written ++ '}' :: tail)).map _ = _
  rw [member]
  rfl

theorem length_object (fields : List Field) :
    (object fields).length ≤
      (fields.map fun field => field.name.length + field.text.length + 4).sum + 2 := by
  have inside := length_commas (fields.map Field.written)
  have each : (fields.map Field.written).map (fun text => text.length + 1) =
      fields.map fun field => field.name.length + field.text.length + 4 := by
    rw [List.map_map]
    apply List.map_congr_left
    intro field _
    simp only [Function.comp_apply, Field.written, List.length_cons, List.length_append]
    omega
  rw [each] at inside
  rw [object, List.length_cons, List.length_append, List.length_singleton]
  omega

/-- A number is read as it is printed. -/
theorem value?_decimal (n : Nat) {rest : CStr} (stops : Stops rest) (bound : Nat) :
    value? (bound + 1) (decimal n ++ rest) = some (.num (decimal n), rest) := by
  obtain ⟨first, more, digits⟩ := List.exists_cons_of_ne_nil (decimal_ne_nil n)
  have isDigit : first.isDigit = true := @isDigit_decimal n first (digits ▸ List.mem_cons_self)
  have read := @number?_decimal [] (Or.inl rfl) n _ _ _ stops.endsNumeral stops.fraction
    stops.exponent
  rw [List.nil_append, List.nil_append, List.append_nil] at read
  rw [digits, List.cons_append] at read ⊢
  rw [value?_number (Or.inl isDigit), read, Option.map_some]

theorem members?_skip (bound : Nat) (text : CStr) :
    members? bound (skip text) = members? bound text := by
  cases bound with
  | zero => rfl
  | succ bound => rw [members?, members?, skip_skip]

theorem members?_newline (bound : Nat) (text : CStr) :
    members? bound ('\n' :: text) = members? bound text := by
  have skipped : skip ('\n' :: text) = skip text := rfl
  rw [← members?_skip, skipped, members?_skip]

/-- A number that is the last member of an object. -/
theorem members?_number {bound : Nat} {name text rest tail : CStr} (verbatim : Verbatim name)
    (enough : name.length ≤ bound) (n : Nat) (stops : Stops tail) (ends : skip tail = '}' :: rest)
    (begins : skip text = '"' :: (name ++ '"' :: ':' :: ' ' :: (decimal n ++ tail))) :
    members? (bound + 2) text = some ([(name, .num (decimal n))], rest) := by
  have named := string?_verbatim verbatim (':' :: ' ' :: (decimal n ++ tail))
    (Nat.lt_succ_of_le enough)
  have colon : skip (':' :: ' ' :: (decimal n ++ tail)) = ':' :: ' ' :: (decimal n ++ tail) := rfl
  have blank : skip (' ' :: (decimal n ++ tail)) = decimal n ++ tail :=
    (settled_decimal n).skip tail
  rw [members?, begins]
  simp only [named, Option.bind_some, colon, blank, value?_decimal n stops, ends]

/-- A string does not go on at the end of a line. -/
theorem string?_endOfLine (bound : Nat) (text : CStr) :
    string? bound (',' :: '\n' :: text) = none := by
  have stuck (bound : Nat) : string? bound ('\n' :: text) = none := by
    cases bound with
    | zero => rfl
    | succ bound =>
        have first : character? (['\n'] ++ text) = some (['\n'], text) :=
          character?_append rfl text
        rw [List.singleton_append] at first
        rw [string?_other (by simp), unit?_other (by simp), first]
        rfl
  cases bound with
  | zero => rfl
  | succ bound =>
      rw [← List.singleton_append, string?_character rfl rfl, stuck, Option.map_none]

end Json
