import HdhrEmu.PidFilter
import Mathlib.Data.List.Forall2
import Mathlib.Data.List.SplitBy
import Mathlib.Data.List.TakeWhile

/-!
# The texts that are filters

A filter is written as PIDs and ranges of PIDs between white space.  The parser
reads the numbers with `sscanf`, which also takes a sign, a second `0x` and
whatever stands behind the digits, and cuts a number to 32 bits.
-/

namespace HdhrEmu

open CString

/-- The text consists of the words, with white space between them. -/
inductive Separated : CStr → List CStr → Prop
  | blanks {text : CStr} (blank : ∀ character ∈ text, isSpace character = true) :
      Separated text []
  | word {front word rest : CStr} {words : List CStr}
      (blank : ∀ character ∈ front, isSpace character = true) (some_ : word ≠ [])
      (solid : ∀ character ∈ word, isSpace character = false)
      (ends : ∀ character ∈ rest.head?, isSpace character = true)
      (more : Separated rest words) : Separated (front ++ (word ++ rest)) (word :: words)

/-- Characters of one kind are one run. -/
theorem splitBy_of_all {text : CStr} (some_ : text ≠ []) {kind : Bool}
    (all : ∀ character ∈ text, isSpace character = kind) :
    (text.splitBy fun first second => isSpace first == isSpace second) = [text] := by
  apply List.splitBy_of_isChain some_
  apply List.Pairwise.isChain
  apply List.pairwise_of_forall_mem_list
  intro first firstMem second secondMem
  rw [all first firstMem, all second secondMem]
  exact beq_self_eq_true kind

theorem tokens_blanks {text : CStr} (blank : ∀ character ∈ text, isSpace character = true) :
    tokens text = [] := by
  cases text with
  | nil => rfl
  | cons first rest =>
      have isBlank := blank first List.mem_cons_self
      rw [tokens, splitBy_of_all (List.cons_ne_nil _ _) blank, List.filter_cons_of_neg,
        List.filter_nil]
      simp [isBlank]

theorem tokens_solid {word : CStr} (some_ : word ≠ [])
    (solid : ∀ character ∈ word, isSpace character = false) : tokens word = [word] := by
  obtain ⟨first, rest, rfl⟩ := List.exists_cons_of_ne_nil some_
  have isSolid := solid first List.mem_cons_self
  rw [tokens, splitBy_of_all some_ solid, List.filter_cons_of_pos, List.filter_nil]
  simp [isSolid]

/-- Where the kind of characters changes, the text can be cut. -/
theorem tokens_append {first second : CStr} {kind : Bool}
    (front : ∀ character ∈ first.getLast?, isSpace character = kind)
    (back : ∀ character ∈ second.head?, isSpace character = !kind) :
    tokens (first ++ second) = tokens first ++ tokens second := by
  rw [tokens, List.splitBy_append, List.filter_append]
  · rfl
  · intro last isLast head isHead
    rw [front last isLast, back head isHead]
    cases kind <;> rfl

theorem tokens_word {front word rest : CStr}
    (blank : ∀ character ∈ front, isSpace character = true) (some_ : word ≠ [])
    (solid : ∀ character ∈ word, isSpace character = false)
    (ends : ∀ character ∈ rest.head?, isSpace character = true) :
    tokens (front ++ (word ++ rest)) = word :: tokens rest := by
  have cut : tokens (word ++ rest) = tokens word ++ tokens rest :=
    tokens_append (fun last isLast => solid last (List.mem_of_mem_getLast? isLast)) ends
  have head : ∀ character ∈ (word ++ rest).head?, isSpace character = false := by
    intro character isHead
    rw [List.head?_append_of_ne_nil _ some_] at isHead
    exact solid character (List.mem_of_mem_head? isHead)
  rw [tokens_append (fun last isLast => blank last (List.mem_of_mem_getLast? isLast)) head,
    tokens_blanks blank, cut, tokens_solid some_ solid]
  rfl

theorem Separated.tokens_eq {text : CStr} {words : List CStr} (separated : Separated text words) :
    tokens text = words := by
  induction separated with
  | blanks blank => exact tokens_blanks blank
  | word blank some_ solid ends _ ih => rw [tokens_word blank some_ solid ends, ih]

theorem head?_dropWhile {kind : Char → Bool} (text : CStr) :
    ∀ character ∈ (text.dropWhile kind).head?, kind character = false := by
  intro character isHead
  have found := List.head?_dropWhile_not kind text
  rw [isHead] at found
  exact found

/-- Every text consists of some words. -/
theorem exists_separated (text : CStr) : ∃ words, Separated text words := by
  obtain ⟨n, size⟩ : ∃ n, text.length = n := ⟨_, rfl⟩
  induction n using Nat.strongRecOn generalizing text with
  | ind n ih =>
      have blank : ∀ character ∈ text.takeWhile isSpace, isSpace character = true :=
        fun _ member => List.mem_takeWhile_imp member
      have front := @List.takeWhile_append_dropWhile _ isSpace text
      by_cases more : text.dropWhile isSpace = []
      · rw [more, List.append_nil] at front
        rw [front] at blank
        exact ⟨[], .blanks blank⟩
      · let solid : Char → Bool := fun character => !isSpace character
        have back := @List.takeWhile_append_dropWhile _ solid (text.dropWhile isSpace)
        have some_ : (text.dropWhile isSpace).takeWhile solid ≠ [] := by
          obtain ⟨first, rest, starts⟩ := List.exists_cons_of_ne_nil more
          have isSolid := head?_dropWhile text first (by rw [starts]; rfl)
          rw [starts, List.takeWhile_cons_of_pos (by simp [solid, isSolid])]
          exact List.cons_ne_nil _ _
        have shorter : ((text.dropWhile isSpace).dropWhile solid).length < n := by
          have whole := congrArg List.length front
          have parts := congrArg List.length back
          have positive := List.length_pos_iff.mpr some_
          rw [List.length_append] at whole parts
          omega
        obtain ⟨words, separated⟩ := ih _ shorter _ rfl
        have isSolid : ∀ character ∈ (text.dropWhile isSpace).takeWhile solid,
            isSpace character = false := by
          intro character member
          have found := List.mem_takeWhile_imp member
          simpa [solid] using found
        have ends : ∀ character ∈ ((text.dropWhile isSpace).dropWhile solid).head?,
            isSpace character = true := by
          intro character isHead
          have found := head?_dropWhile _ character isHead
          simpa [solid] using found
        have whole := Separated.word blank some_ isSolid ends separated
        rw [back, front] at whole
        exact ⟨_, whole⟩

/-- The words of a text are what the parser finds. -/
theorem tokens_eq_iff {text : CStr} {words : List CStr} :
    tokens text = words ↔ Separated text words := by
  constructor
  · rintro rfl
    obtain ⟨words, separated⟩ := exists_separated text
    rw [separated.tokens_eq]
    exact separated
  · exact Separated.tokens_eq

/-- One or more hexadecimal digits. -/
def IsHex (digits : CStr) : Prop :=
  digits ≠ [] ∧ ∀ character ∈ digits, (hexDigit? character).isSome

def hexValue (digits : CStr) : Nat :=
  digits.foldl (fun sum character => 16 * sum + (hexDigit? character).getD 0) 0

/-- The digits end where the rest begins. -/
def EndsHex (rest : CStr) : Prop :=
  ∀ character ∈ rest.head?, hexDigit? character = none

theorem takeWhile_hex {digits rest : CStr}
    (hex : ∀ character ∈ digits, (hexDigit? character).isSome) (ends : EndsHex rest) :
    (digits ++ rest).takeWhile (fun character => (hexDigit? character).isSome) = digits := by
  rw [List.takeWhile_append_of_pos hex]
  cases rest with
  | nil => rw [List.takeWhile_nil, List.append_nil]
  | cons first rest =>
      have notDigit := ends first rfl
      rw [List.takeWhile_cons_of_neg (by rw [notDigit]; decide), List.append_nil]

/-- The digits at the front of a text, and what is behind them. -/
theorem takeWhile_hexDigits (text : CStr) :
    (∀ character ∈ text.takeWhile fun character => (hexDigit? character).isSome,
        (hexDigit? character).isSome) ∧
      EndsHex (text.dropWhile fun character => (hexDigit? character).isSome) := by
  constructor
  · intro character member
    have digit := List.mem_takeWhile_imp member
    exact digit
  · intro character isHead
    have found := head?_dropWhile _ character isHead
    exact Option.not_isSome_iff_eq_none.mp (by rw [found]; decide)

theorem hexDigits_eq_some_iff {text : CStr} {n : Nat} :
    hexDigits text = some n ↔
      ∃ digits rest, text = digits ++ rest ∧ IsHex digits ∧ EndsHex rest ∧ hexValue digits = n := by
  constructor
  · intro read
    unfold hexDigits at read
    split at read
    · cases read
    · rename_i some_
      cases read
      obtain ⟨hex, ends⟩ := takeWhile_hexDigits text
      exact ⟨_, _, List.takeWhile_append_dropWhile.symm, ⟨some_, hex⟩, ends, rfl⟩
  · rintro ⟨digits, rest, rfl, ⟨some_, hex⟩, ends, rfl⟩
    rw [hexDigits, takeWhile_hex hex ends]
    split
    · exact absurd rfl some_
    · rfl

/-- What is behind a sign: a mark, digits and what is left.  Behind a mark
there may be no digits. -/
structure Magnitude (text mark digits rest : CStr) : Prop where
  whole : text = mark ++ (digits ++ rest)
  isMark : mark = [] ∨ mark = "0x".toList ∨ mark = "0X".toList
  hex : ∀ character ∈ digits, (hexDigit? character).isSome
  ends : EndsHex rest
  some_ : mark = [] → digits ≠ []
  unmarked : mark = [] → digits = ['0'] → rest.head? ≠ some 'x' ∧ rest.head? ≠ some 'X'

/-- Digits that may be missing. -/
theorem getD_hexDigits {digits rest : CStr}
    (hex : ∀ character ∈ digits, (hexDigit? character).isSome) (ends : EndsHex rest) :
    (hexDigits (digits ++ rest)).getD 0 = hexValue digits := by
  cases digits with
  | nil =>
      rw [hexDigits, takeWhile_hex hex ends]
      rfl
  | cons first more =>
      have read := hexDigits_eq_some_iff.mpr
        ⟨first :: more, rest, rfl, ⟨List.cons_ne_nil _ _, hex⟩, ends, rfl⟩
      rw [read]
      rfl

theorem scanMagnitude_unmarked {text : CStr} (lower : ∀ rest, text ≠ '0' :: 'x' :: rest)
    (upper : ∀ rest, text ≠ '0' :: 'X' :: rest) : scanMagnitude text = hexDigits text := by
  unfold scanMagnitude
  split
  · exact absurd rfl (lower _)
  · exact absurd rfl (upper _)
  · rfl

theorem scanMagnitude_eq_some_iff {text : CStr} {n : Nat} :
    scanMagnitude text = some n ↔
      ∃ mark digits rest, Magnitude text mark digits rest ∧ hexValue digits = n := by
  constructor
  · have marked (mark : CStr) (isMark : mark = "0x".toList ∨ mark = "0X".toList) (body : CStr)
        (read : some ((hexDigits body).getD 0) = some n) :
        ∃ mark' digits rest, Magnitude (mark ++ body) mark' digits rest ∧ hexValue digits = n := by
      obtain ⟨hex, ends⟩ := takeWhile_hexDigits body
      have notEmpty : mark ≠ [] := by
        rcases isMark with rfl | rfl <;> exact List.cons_ne_nil _ _
      refine ⟨mark, _, _, ⟨?_, Or.inr isMark, hex, ends, fun empty => absurd empty notEmpty,
        fun empty => absurd empty notEmpty⟩, ?_⟩
      · rw [List.takeWhile_append_dropWhile]
      · rw [← getD_hexDigits hex ends, List.takeWhile_append_dropWhile]
        exact Option.some.inj read
    fun_cases scanMagnitude text with
    | case1 digits => exact marked "0x".toList (Or.inl rfl) digits
    | case2 digits => exact marked "0X".toList (Or.inr rfl) digits
    | case3 _ lower upper =>
        intro read
        obtain ⟨digits, rest, rfl, ⟨some_, hex⟩, ends, value⟩ := hexDigits_eq_some_iff.mp read
        refine ⟨[], digits, rest, ⟨rfl, Or.inl rfl, hex, ends, fun _ => some_, ?_⟩, value⟩
        rintro - rfl
        constructor
        · intro isHead
          obtain ⟨more, rfl⟩ := List.head?_eq_some_iff.mp isHead
          exact lower more rfl
        · intro isHead
          obtain ⟨more, rfl⟩ := List.head?_eq_some_iff.mp isHead
          exact upper more rfl
  · rintro ⟨mark, digits, rest, magnitude, rfl⟩
    have read := getD_hexDigits magnitude.hex magnitude.ends
    rw [magnitude.whole]
    rcases magnitude.isMark with rfl | rfl | rfl
    · have some_ := magnitude.some_ rfl
      have unmarked := magnitude.unmarked rfl
      have plain : ∀ letter, (letter = 'x' ∨ letter = 'X') → ∀ more,
          digits ++ rest ≠ '0' :: letter :: more := by
        intro letter isLetter more same
        obtain ⟨first, others, rfl⟩ := List.exists_cons_of_ne_nil some_
        obtain ⟨rfl, tail⟩ := List.cons.inj same
        cases others with
        | nil =>
            have isHead : rest.head? = some letter := by
              have is : rest = letter :: more := tail
              rw [is]
              rfl
            rcases isLetter with rfl | rfl
            · exact (unmarked rfl).1 isHead
            · exact (unmarked rfl).2 isHead
        | cons second others =>
            obtain ⟨rfl, -⟩ := List.cons.inj tail
            have digit := magnitude.hex second (List.mem_cons_of_mem _ List.mem_cons_self)
            rcases isLetter with rfl | rfl
            · exact absurd digit (by decide)
            · exact absurd digit (by decide)
      rw [List.nil_append, scanMagnitude_unmarked (plain 'x' (Or.inl rfl)) (plain 'X' (Or.inr rfl))]
      exact hexDigits_eq_some_iff.mpr
        ⟨digits, rest, rfl, ⟨some_, magnitude.hex⟩, magnitude.ends, rfl⟩
    · exact congrArg some read
    · exact congrArg some read

/-- What `%x` stops in: a sign, a mark, digits and what is left. -/
def ReadsAs (text : CStr) (value : UInt32) : Prop :=
  ∃ sign unsigned mark digits rest, text = sign ++ unsigned ∧
    (sign = [] ∨ sign = ['+'] ∨ sign = ['-']) ∧ Magnitude unsigned mark digits rest ∧
    value = unsignedOf (sign = ['-']) (hexValue digits)

theorem Magnitude.no_sign {text mark digits rest : CStr} (magnitude : Magnitude text mark digits rest)
    (sign : Char) (isSign : sign = '-' ∨ sign = '+') (more : CStr) : text ≠ sign :: more := by
  intro same
  have whole := magnitude.whole
  rw [same] at whole
  rcases magnitude.isMark with rfl | rfl | rfl
  · obtain ⟨first, others, rfl⟩ := List.exists_cons_of_ne_nil (magnitude.some_ rfl)
    obtain ⟨rfl, -⟩ := List.cons.inj whole
    have digit := magnitude.hex sign List.mem_cons_self
    rcases isSign with rfl | rfl
    · exact absurd digit (by decide)
    · exact absurd digit (by decide)
  · obtain ⟨rfl, -⟩ := List.cons.inj whole
    exact absurd isSign (by decide)
  · obtain ⟨rfl, -⟩ := List.cons.inj whole
    exact absurd isSign (by decide)

theorem scanHex_eq_some_iff {text : CStr} {value : UInt32} :
    scanHex text = some value ↔ ReadsAs text value := by
  have signed (sign unsigned : CStr) (isSign : sign = [] ∨ sign = ['+'] ∨ sign = ['-']) :
      (scanMagnitude unsigned).map (unsignedOf (sign = ['-'])) = some value →
        ReadsAs (sign ++ unsigned) value := by
    intro read
    obtain ⟨n, found, rfl⟩ := Option.map_eq_some_iff.mp read
    obtain ⟨mark, digits, rest, magnitude, rfl⟩ := scanMagnitude_eq_some_iff.mp found
    exact ⟨sign, unsigned, mark, digits, rest, rfl, isSign, magnitude, rfl⟩
  constructor
  · fun_cases scanHex text with
    | case1 rest => exact signed ['-'] rest (Or.inr (Or.inr rfl))
    | case2 rest => exact signed ['+'] rest (Or.inr (Or.inl rfl))
    | case3 => exact signed [] text (Or.inl rfl)
  · rintro ⟨sign, unsigned, mark, digits, rest, rfl, isSign, magnitude, rfl⟩
    have found := scanMagnitude_eq_some_iff.mpr ⟨mark, digits, rest, magnitude, rfl⟩
    rcases isSign with rfl | rfl | rfl
    · have minus := magnitude.no_sign '-' (Or.inl rfl)
      have plus := magnitude.no_sign '+' (Or.inr rfl)
      rw [List.nil_append, scanHex.eq_def]
      split
      · exact absurd rfl (minus _)
      · exact absurd rfl (plus _)
      · exact Option.map_eq_some_iff.mpr ⟨_, found, rfl⟩
    · exact Option.map_eq_some_iff.mpr ⟨_, found, rfl⟩
    · exact Option.map_eq_some_iff.mpr ⟨_, found, rfl⟩

/-- A token as it should be written: a PID, or two PIDs in their order. -/
def WrittenToken (token : CStr) (range : PidRange) : Prop :=
  token.length < 32 ∧ range.start ≤ range.last ∧ range.last ≤ 0x1FFF ∧
    ((∃ digits, IsHex digits ∧ token = "0x".toList ++ digits ∧
        hexValue digits = range.start.toNat ∧ range.start = range.last) ∨
      ∃ first second, IsHex first ∧ IsHex second ∧
        token = "0x".toList ++ first ++ '-' :: ("0x".toList ++ second) ∧
        hexValue first = range.start.toNat ∧ hexValue second = range.last.toNat)

/-- A token that `sscanf` stops in without complaint, with numbers that are PIDs
in their order once they are cut to 32 bits. -/
def ScannedToken (token : CStr) (range : PidRange) : Prop :=
  token.length < 32 ∧ range.start ≤ range.last ∧ range.last ≤ 0x1FFF ∧
    ((∃ body, '-' ∉ token ∧ token = "0x".toList ++ body ∧
        ReadsAs body range.start.toUInt32 ∧ range.start = range.last) ∨
      ∃ first second, '-' ∉ first ∧
        token = "0x".toList ++ first ++ '-' :: ("0x".toList ++ second) ∧
        ReadsAs first range.start.toUInt32 ∧ ReadsAs second range.last.toUInt32)

/-- A token that is read though it is not written as it should be. -/
def MisreadToken (token : CStr) : Prop :=
  (∃ range, ScannedToken token range) ∧ ¬ ∃ range, WrittenToken token range

/-- A filter as it should be written. -/
def WrittenFilter (text : CStr) (ranges : List PidRange) : Prop :=
  ∃ words, Separated text words ∧ words.length ≤ pidFilterMaxRanges ∧
    List.Forall₂ WrittenToken words ranges

theorem isPrefixOf?_eq_some_iff {front text rest : CStr} :
    front.isPrefixOf? text = some rest ↔ text = front ++ rest := by
  induction front generalizing text with
  | nil =>
      rw [List.isPrefixOf?, List.nil_append, Option.some.injEq]
  | cons first front ih =>
      cases text with
      | nil => simp [List.isPrefixOf?]
      | cons character text =>
          rw [List.isPrefixOf?, List.cons_append, List.cons.injEq]
          by_cases same : first = character
          · rw [if_pos (by simp [same]), ih, and_iff_right same.symm]
          · rw [if_neg (by simp [same])]
            exact iff_of_false nofun fun both => same both.1.symm

theorem scanPid_eq_some_iff {text : CStr} {value : UInt32} :
    scanPid text = some value ↔ ∃ body, text = "0x".toList ++ body ∧ ReadsAs body value := by
  constructor
  · intro read
    unfold scanPid at read
    split at read
    · rename_i body found
      exact ⟨body, isPrefixOf?_eq_some_iff.mp found, scanHex_eq_some_iff.mp read⟩
    · cases read
  · rintro ⟨body, rfl, readsAs⟩
    have found : "0x".toList.isPrefixOf? ("0x".toList ++ body) = some body :=
      isPrefixOf?_eq_some_iff.mpr rfl
    rw [scanPid, found]
    exact scanHex_eq_some_iff.mpr readsAs

theorem toUInt16_toUInt32 {value : UInt32} (small : ¬ 0x1FFF < value) :
    value.toUInt16.toUInt32 = value := by
  have bound : value.toNat ≤ 0x1FFF := UInt32.le_iff_toNat_le.mp (UInt32.not_lt.mp small)
  apply UInt32.toNat_inj.mp
  rw [UInt16.toNat_toUInt32, UInt32.toNat_toUInt16]
  omega

/-- The two numbers of a token. -/
def tokenBounds (token : CStr) : Option (UInt32 × UInt32) :=
  match splitAt? '-' token with
  | some (first, second) => (scanPid first).bind fun start => (scanPid second).map (start, ·)
  | none => (scanPid token).map fun start => (start, start)

/-- The checks on the numbers of a token. -/
def boundedRange : Option (UInt32 × UInt32) → Option PidRange
  | some (start, last) =>
      if 0x1FFF < start ∨ 0x1FFF < last ∨ last < start then none
      else some ⟨start.toUInt16, last.toUInt16⟩
  | none => none

theorem pidRange_eq (token : CStr) :
    pidRange token = if 32 ≤ token.length then none else boundedRange (tokenBounds token) := by
  unfold pidRange boundedRange tokenBounds
  rfl

theorem boundedRange_eq_some_iff {bounds : Option (UInt32 × UInt32)} {range : PidRange} :
    boundedRange bounds = some range ↔ range.start ≤ range.last ∧ range.last ≤ 0x1FFF ∧
      bounds = some (range.start.toUInt32, range.last.toUInt32) := by
  constructor
  · intro accepted
    unfold boundedRange at accepted
    split at accepted
    · rename_i start last
      split at accepted
      · cases accepted
      · rename_i inside
        cases accepted
        obtain ⟨startSmall, lastSmall, ordered⟩ := by simpa only [not_or] using inside
        have startBack := toUInt16_toUInt32 startSmall
        have lastBack := toUInt16_toUInt32 lastSmall
        rw [UInt32.lt_iff_toNat_lt] at lastSmall ordered
        refine ⟨?_, ?_, by rw [startBack, lastBack]⟩
        · rw [UInt16.le_iff_toNat_le, ← UInt16.toNat_toUInt32, ← UInt16.toNat_toUInt32, startBack,
            lastBack]
          exact Nat.le_of_not_lt ordered
        · rw [UInt16.le_iff_toNat_le, ← UInt16.toNat_toUInt32, lastBack]
          exact Nat.le_of_not_lt lastSmall
    · cases accepted
  · rintro ⟨ordered, small, rfl⟩
    have inside : ¬ (0x1FFF < range.start.toUInt32 ∨ 0x1FFF < range.last.toUInt32 ∨
        range.last.toUInt32 < range.start.toUInt32) := by
      rw [UInt16.le_iff_toNat_le] at ordered small
      have small : range.last.toNat ≤ 0x1FFF := small
      simp only [UInt32.lt_iff_toNat_lt, UInt16.toNat_toUInt32]
      rintro (above | above | above)
      · exact absurd (show 0x1FFF < range.start.toNat from above) (by omega)
      · exact absurd (show 0x1FFF < range.last.toNat from above) (by omega)
      · omega
    rw [boundedRange, if_neg inside, UInt16.toUInt16_toUInt32, UInt16.toUInt16_toUInt32]

theorem tokenBounds_eq_some_iff {token : CStr} {start last : UInt32} :
    tokenBounds token = some (start, last) ↔
      (∃ body, '-' ∉ token ∧ token = "0x".toList ++ body ∧ ReadsAs body start ∧ start = last) ∨
        ∃ first second, '-' ∉ first ∧
          token = "0x".toList ++ first ++ '-' :: ("0x".toList ++ second) ∧
          ReadsAs first start ∧ ReadsAs second last := by
  constructor
  · intro read
    unfold tokenBounds at read
    split at read
    · rename_i before behind cut
      obtain ⟨start', startRead, read⟩ := Option.bind_eq_some_iff.mp read
      obtain ⟨last', lastRead, same⟩ := Option.map_eq_some_iff.mp read
      cases same
      obtain ⟨first, rfl, firstReads⟩ := scanPid_eq_some_iff.mp startRead
      obtain ⟨second, rfl, secondReads⟩ := scanPid_eq_some_iff.mp lastRead
      obtain ⟨whole, absent⟩ := splitAt?_eq_some cut
      have noDash : '-' ∉ first := fun member => absent (List.mem_append_right _ member)
      exact Or.inr ⟨first, second, noDash, whole, firstReads, secondReads⟩
    · rename_i cut
      obtain ⟨start', startRead, same⟩ := Option.map_eq_some_iff.mp read
      cases same
      obtain ⟨body, whole, reads⟩ := scanPid_eq_some_iff.mp startRead
      have noDash : '-' ∉ token := by
        intro member
        obtain ⟨front, back, rfl, absent⟩ := List.eq_append_cons_of_mem member
        rw [splitAt?_append absent] at cut
        cases cut
      exact Or.inl ⟨body, noDash, whole, reads, rfl⟩
  · rintro (⟨body, noDash, whole, reads, rfl⟩ | ⟨first, second, noDash, rfl, firstReads, secondReads⟩)
    · rw [tokenBounds, splitAt?_eq_none noDash]
      exact Option.map_eq_some_iff.mpr ⟨start, scanPid_eq_some_iff.mpr ⟨body, whole, reads⟩, rfl⟩
    · have absent : '-' ∉ "0x".toList ++ first := by
        rw [List.mem_append, not_or]
        exact ⟨by decide, noDash⟩
      rw [tokenBounds, splitAt?_append absent]
      dsimp only
      rw [scanPid_eq_some_iff.mpr ⟨first, rfl, firstReads⟩,
        scanPid_eq_some_iff.mpr ⟨second, rfl, secondReads⟩]
      rfl

theorem pidRange_eq_some_iff {token : CStr} {range : PidRange} :
    pidRange token = some range ↔ ScannedToken token range := by
  rw [pidRange_eq, ScannedToken]
  by_cases long : 32 ≤ token.length
  · rw [if_pos long]
    exact iff_of_false nofun fun all => absurd all.1 (Nat.not_lt.mpr long)
  · have same : range.start.toUInt32 = range.last.toUInt32 ↔ range.start = range.last := by
      rw [← UInt32.toNat_inj, ← UInt16.toNat_inj, UInt16.toNat_toUInt32, UInt16.toNat_toUInt32]
    rw [if_neg long, and_iff_right (Nat.lt_of_not_le long), boundedRange_eq_some_iff,
      tokenBounds_eq_some_iff, same]

theorem dash_not_mem {digits : CStr} (hex : IsHex digits) : '-' ∉ digits := by
  intro member
  exact absurd (hex.2 '-' member) (by decide)

/-- A number that is written in digits is read as it is written. -/
theorem readsAs_digits {digits : CStr} (hex : IsHex digits) {pid : UInt16}
    (value : hexValue digits = pid.toNat) : ReadsAs digits pid.toUInt32 := by
  have magnitude : Magnitude digits [] digits [] :=
    ⟨(List.append_nil digits).symm, Or.inl rfl, hex.2, nofun, fun _ => hex.1, fun _ _ => ⟨nofun, nofun⟩⟩
  refine ⟨[], digits, [], digits, [], rfl, Or.inl rfl, magnitude, ?_⟩
  have bound := pid.toNat_lt
  apply UInt32.toNat_inj.mp
  rw [value, unsignedOf, if_neg (by omega), if_neg (by decide), UInt16.toNat_toUInt32,
    UInt32.toNat_ofNat']
  omega

/-- What is written as it should be is read so. -/
theorem WrittenToken.scanned {token : CStr} {range : PidRange} (written : WrittenToken token range) :
    ScannedToken token range := by
  obtain ⟨short, ordered, small, ⟨digits, hex, rfl, value, single⟩ |
    ⟨first, second, firstHex, secondHex, rfl, firstValue, secondValue⟩⟩ := written
  · have noDash : '-' ∉ "0x".toList ++ digits := by
      rw [List.mem_append, not_or]
      exact ⟨by decide, dash_not_mem hex⟩
    exact ⟨short, ordered, small, Or.inl ⟨digits, noDash, rfl, readsAs_digits hex value, single⟩⟩
  · exact ⟨short, ordered, small, Or.inr ⟨first, second, dash_not_mem firstHex, rfl,
      readsAs_digits firstHex firstValue, readsAs_digits secondHex secondValue⟩⟩

theorem mapM_eq_some_iff {α β : Type} {f : α → Option β} {list : List α} {results : List β} :
    list.mapM f = some results ↔ List.Forall₂ (fun a b => f a = some b) list results := by
  induction list generalizing results with
  | nil =>
      rw [List.mapM_nil, List.forall₂_nil_left_iff]
      exact ⟨fun same => (Option.some.inj same).symm, fun same => congrArg some same.symm⟩
  | cons a list ih =>
      rw [List.mapM_cons, List.forall₂_cons_left_iff]
      constructor
      · intro all
        obtain ⟨b, first, all⟩ := Option.bind_eq_some_iff.mp all
        obtain ⟨rest, more, same⟩ := Option.bind_eq_some_iff.mp all
        exact ⟨b, rest, first, ih.mp more, (Option.some.inj same).symm⟩
      · rintro ⟨b, rest, first, more, rfl⟩
        rw [first, ih.mpr more]
        rfl

theorem exists_forall₂_iff {α β : Type} {related : α → β → Prop} {list : List α} :
    (∃ results, List.Forall₂ related list results) ↔ ∀ a ∈ list, ∃ b, related a b := by
  induction list with
  | nil => exact ⟨fun _ => nofun, fun _ => ⟨[], List.Forall₂.nil⟩⟩
  | cons a list ih =>
      rw [List.forall_mem_cons, ← ih]
      constructor
      · rintro ⟨results, all⟩
        obtain ⟨b, rest, first, more, rfl⟩ := List.forall₂_cons_left_iff.mp all
        exact ⟨⟨b, first⟩, rest, more⟩
      · rintro ⟨⟨b, first⟩, rest, more⟩
        exact ⟨b :: rest, List.Forall₂.cons first more⟩

/-- The texts that are accepted, and the ranges that are read. -/
theorem pidFilterParse_eq_some_iff {text : CStr} {ranges : List PidRange} :
    pidFilterParse text = some ranges ↔
      ∃ words, Separated text words ∧ words.length ≤ pidFilterMaxRanges ∧
        List.Forall₂ ScannedToken words ranges := by
  have scanned (words : List CStr) (ranges : List PidRange) :
      words.mapM pidRange = some ranges ↔ List.Forall₂ ScannedToken words ranges := by
    simp only [mapM_eq_some_iff, pidRange_eq_some_iff]
  constructor
  · intro parsed
    unfold pidFilterParse at parsed
    split at parsed
    · rename_i found read
      split at parsed
      · rename_i few
        cases parsed
        have all := (scanned _ _).mp read
        exact ⟨tokens text, tokens_eq_iff.mp rfl, all.length_eq ▸ few, all⟩
      · cases parsed
    · cases parsed
  · rintro ⟨words, separated, few, all⟩
    rw [pidFilterParse, tokens_eq_iff.mpr separated, (scanned _ _).mpr all]
    exact if_pos (all.length_eq ▸ few)

/-- The parser accepts exactly the filters that are written as they should be,
as what they are written, unless a text has at most 32 words, each of which is
written so or is misread, and one of them is misread. -/
theorem pid_filter_parse_iff (text : CStr) :
    (∀ ranges, pidFilterParse text = some ranges ↔ WrittenFilter text ranges) ↔
      ¬ ∃ words, Separated text words ∧ words.length ≤ pidFilterMaxRanges ∧
        (∀ word ∈ words, (∃ range, WrittenToken word range) ∨ MisreadToken word) ∧
        ∃ word ∈ words, MisreadToken word := by
  constructor
  · rintro agrees ⟨words, separated, few, read, word, member, misread⟩
    have scanned : ∀ word ∈ words, ∃ range, ScannedToken word range := by
      intro other otherMem
      rcases read other otherMem with ⟨range, written⟩ | misread
      · exact ⟨range, written.scanned⟩
      · exact misread.1
    obtain ⟨ranges, all⟩ := exists_forall₂_iff.mpr scanned
    obtain ⟨words', separated', -, written⟩ :=
      (agrees ranges).mp (pidFilterParse_eq_some_iff.mpr ⟨words, separated, few, all⟩)
    have same : words' = words := separated'.tokens_eq.symm.trans separated.tokens_eq
    exact misread.2 (exists_forall₂_iff.mp ⟨ranges, written⟩ word (same ▸ member))
  · intro none_ ranges
    rw [pidFilterParse_eq_some_iff]
    constructor
    · rintro ⟨words, separated, few, all⟩
      have scanned := exists_forall₂_iff.mp ⟨ranges, all⟩
      have read : ∀ word ∈ words, (∃ range, WrittenToken word range) ∨ MisreadToken word := by
        intro word member
        by_cases written : ∃ range, WrittenToken word range
        · exact Or.inl written
        · exact Or.inr ⟨scanned word member, written⟩
      have written : ∀ word ∈ words, ∃ range, WrittenToken word range := by
        intro word member
        apply (read word member).resolve_right
        exact fun misread => none_ ⟨words, separated, few, read, word, member, misread⟩
      obtain ⟨ranges', each⟩ := exists_forall₂_iff.mpr written
      have parsed := pidFilterParse_eq_some_iff.mpr ⟨words, separated, few, all⟩
      have parsed' := pidFilterParse_eq_some_iff.mpr
        ⟨words, separated, few, each.imp fun _ _ written => written.scanned⟩
      rw [parsed] at parsed'
      cases parsed'
      exact ⟨words, separated, few, each⟩
    · rintro ⟨words, separated, few, all⟩
      exact ⟨words, separated, few, all.imp fun _ _ written => written.scanned⟩

/-- What stands behind the digits is not looked at. -/
theorem pid_filter_parse_trailing :
    ¬ ∀ ranges, pidFilterParse "0x31zz".toList = some ranges ↔
      WrittenFilter "0x31zz".toList ranges := by
  intro agrees
  obtain ⟨words, separated, -, all⟩ :=
    (agrees [⟨0x31, 0x31⟩]).mp (by decide)
  have word : words = ["0x31zz".toList] := separated.tokens_eq.symm.trans (by decide)
  rw [word, List.forall₂_cons] at all
  obtain ⟨-, -, -, ⟨digits, hex, whole, -⟩ | ⟨first, second, -, -, whole, -⟩⟩ := all.1
  · have same : "31zz".toList = digits := @List.append_cancel_left _ "0x".toList _ _ whole
    exact absurd (hex.2 'z' (by rw [← same]; decide)) (by decide)
  · have dash : '-' ∈ "0x31zz".toList := by
      rw [whole]
      exact List.mem_append_right _ List.mem_cons_self
    exact absurd dash (by decide)

end HdhrEmu
