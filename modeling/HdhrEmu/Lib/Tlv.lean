import Mathlib.Data.Nat.Bitwise
import Mathlib.Tactic.Linarith

/-!
# Tag, length, value

A payload is a sequence of items: a tag byte, a length of one or two bytes and
that many value bytes.  A length below 128 is one byte; a longer one is its low
seven bits with the high bit set, and then the rest.
-/

namespace Tlv

structure Item where
  tag : UInt8
  value : List UInt8
  deriving DecidableEq, Repr

/-- The lengths that two bytes can carry. -/
def maxLength : Nat := 2 ^ 15

def lengthBytes (length : Nat) : List UInt8 :=
  if length ≤ 127 then [UInt8.ofNat length]
  else [UInt8.ofNat ((length &&& 0x7F) ||| 0x80), UInt8.ofNat (length >>> 7)]

def Item.encode (item : Item) : List UInt8 :=
  item.tag :: (lengthBytes item.value.length ++ item.value)

def encode (items : List Item) : List UInt8 :=
  items.flatMap Item.encode

/-- What is found at the front of a payload. -/
inductive Next
  | finished
  | malformed
  | item (item : Item) (rest : List UInt8)
  deriving DecidableEq, Repr

/-- The value of a given length, if the payload still has it. -/
def takeValue (tag : UInt8) (length : Nat) (rest : List UInt8) : Next :=
  if length ≤ rest.length then .item ⟨tag, rest.take length⟩ (rest.drop length) else .malformed

def next : List UInt8 → Next
  | [] => .finished
  | [_] => .malformed
  | tag :: low :: rest =>
      if low &&& 0x80 = 0 then takeValue tag low.toNat rest
      else
        match rest with
        | [] => .malformed
        | high :: rest => takeValue tag ((low &&& 0x7F).toNat ||| (high.toNat <<< 7)) rest

theorem takeValue_item {tag : UInt8} {length : Nat} {bytes rest : List UInt8} {item : Item}
    (took : takeValue tag length bytes = .item item rest) : rest.length ≤ bytes.length := by
  unfold takeValue at took
  split at took
  · cases took
    exact Nat.le_trans (Nat.le_of_eq List.length_drop) (Nat.sub_le _ _)
  · cases took

theorem next_short {tag low : UInt8} (short : low &&& 0x80 = 0) (rest : List UInt8) :
    next (tag :: low :: rest) = takeValue tag low.toNat rest := by
  rw [next.eq_def]
  exact if_pos short

theorem next_long {tag low : UInt8} (long : low &&& 0x80 ≠ 0) (rest : List UInt8) :
    next (tag :: low :: rest) =
      match rest with
      | [] => .malformed
      | high :: rest => takeValue tag ((low &&& 0x7F).toNat ||| (high.toNat <<< 7)) rest := by
  rw [next.eq_def]
  exact if_neg long

/-- Reading an item uses up at least its tag and its length. -/
theorem next_item {bytes rest : List UInt8} {item : Item} (found : next bytes = .item item rest) :
    rest.length < bytes.length := by
  revert found
  fun_cases next bytes with
  | case1 | case2 | case4 => intro found; cases found
  | case3 tag low tail =>
      intro found
      have le := takeValue_item found
      simp only [List.length_cons]
      omega
  | case5 tag low high tail =>
      intro found
      have le := takeValue_item found
      simp only [List.length_cons]
      omega

/-- All items of a payload, and whether it ends behind the last one. -/
def decode (bytes : List UInt8) : List Item × Bool :=
  match _ : next bytes with
  | .finished => ([], true)
  | .malformed => ([], false)
  | .item item rest => (item :: (decode rest).1, (decode rest).2)
termination_by bytes.length
decreasing_by exact next_item ‹_›

@[simp]
theorem encode_nil : encode [] = [] :=
  rfl

@[simp]
theorem encode_cons (item : Item) (items : List Item) :
    encode (item :: items) = item.encode ++ encode items :=
  List.flatMap_cons

@[simp]
theorem encode_append (first second : List Item) :
    encode (first ++ second) = encode first ++ encode second :=
  List.flatMap_append

theorem takeValue_append (tag : UInt8) (value rest : List UInt8) :
    takeValue tag value.length (value ++ rest) = .item ⟨tag, value⟩ rest := by
  simp [takeValue]

/-- A length of one byte. -/
theorem short_and {length : Nat} (short : length ≤ 127) :
    UInt8.ofNat length &&& 0x80 = 0 ∧ (UInt8.ofNat length).toNat = length := by
  have all : ∀ length < 128, UInt8.ofNat length &&& 0x80 = 0 ∧
      (UInt8.ofNat length).toNat = length := by
    decide
  exact all length (by omega)

/-- The first of two length bytes. -/
theorem low_and (length : Nat) :
    UInt8.ofNat ((length &&& 0x7F) ||| 0x80) &&& 0x80 ≠ 0 ∧
      (UInt8.ofNat ((length &&& 0x7F) ||| 0x80) &&& 0x7F).toNat = length % 128 := by
  have all : ∀ low < 128, UInt8.ofNat (low ||| 0x80) &&& 0x80 ≠ 0 ∧
      (UInt8.ofNat (low ||| 0x80) &&& 0x7F).toNat = low := by
    decide
  have low : length &&& 0x7F = length % 128 := Nat.and_two_pow_sub_one_eq_mod length 7
  rw [low]
  exact all (length % 128) (Nat.mod_lt _ (by decide))

/-- The second of two length bytes, and the length put together again. -/
theorem high_or {length : Nat} (bound : length < maxLength) :
    length % 128 ||| ((UInt8.ofNat (length >>> 7)).toNat <<< 7) = length := by
  have high : length >>> 7 = length / 128 := Nat.shiftRight_eq_div_pow length 7
  have small : length / 128 < 256 := by
    unfold maxLength at bound
    omega
  have exact_ : (UInt8.ofNat (length >>> 7)).toNat = length / 128 := by
    rw [high, UInt8.toNat_ofNat']
    exact Nat.mod_eq_of_lt small
  have parts := Nat.two_pow_add_eq_or_of_lt (Nat.mod_lt length (by decide : 0 < 2 ^ 7)) (length / 128)
  rw [exact_, Nat.lor_comm, Nat.shiftLeft_eq, Nat.mul_comm]
  exact parts.symm.trans (Nat.div_add_mod length 128)

/-- Reading back one item. -/
theorem next_encode {item : Item} (bound : item.value.length < maxLength) (rest : List UInt8) :
    next (item.encode ++ rest) = .item item rest := by
  unfold Item.encode lengthBytes
  by_cases short : item.value.length ≤ 127
  · obtain ⟨flag, value⟩ := short_and short
    simp only [if_pos short, List.cons_append, List.nil_append, next, flag, if_true, value]
    exact takeValue_append _ _ _
  · obtain ⟨flag, value⟩ := low_and item.value.length
    simp only [if_neg short, List.cons_append, List.nil_append, next, flag, if_false, value,
      high_or bound]
    exact takeValue_append _ _ _

theorem decode_of_finished {bytes : List UInt8} (found : next bytes = .finished) :
    decode bytes = ([], true) := by
  rw [decode]
  split <;> simp_all

theorem decode_of_malformed {bytes : List UInt8} (found : next bytes = .malformed) :
    decode bytes = ([], false) := by
  rw [decode]
  split <;> simp_all

theorem decode_of_item {bytes rest : List UInt8} {item : Item}
    (found : next bytes = .item item rest) :
    decode bytes = (item :: (decode rest).1, (decode rest).2) := by
  rw [decode]
  split <;> simp_all

/-- Reading back a whole payload. -/
theorem decode_encode {items : List Item}
    (bound : ∀ item ∈ items, item.value.length < maxLength) :
    decode (encode items) = (items, true) := by
  induction items with
  | nil => exact decode_of_finished rfl
  | cons item items ih =>
      rw [List.forall_mem_cons] at bound
      rw [encode_cons, decode_of_item (next_encode bound.1 (encode items)), ih bound.2]

theorem length_lengthBytes (length : Nat) :
    (lengthBytes length).length = if length ≤ 127 then 1 else 2 := by
  unfold lengthBytes
  split <;> rfl

theorem length_encode_item (item : Item) :
    item.encode.length =
      1 + (if item.value.length ≤ 127 then 1 else 2) + item.value.length := by
  simp only [Item.encode, List.length_cons, List.length_append, length_lengthBytes]
  omega

/-- In a short payload every value is short. -/
theorem lt_maxLength_of_encode {items : List Item} (short : (encode items).length < maxLength) :
    ∀ item ∈ items, item.value.length < maxLength := by
  induction items with
  | nil => exact fun _ member => absurd member List.not_mem_nil
  | cons first items ih =>
      rw [encode_cons, List.length_append, length_encode_item] at short
      rw [List.forall_mem_cons]
      exact ⟨by omega, ih (by omega)⟩

/-- A length in one byte or in two; two bytes may spell a length that one could. -/
inductive LengthField (length : Nat) : List UInt8 → Prop
  | short {byte : UInt8} (below : length < 128) (reads : byte.toNat = length) :
      LengthField length [byte]
  | long {low high : UInt8} (above : 128 ≤ low.toNat)
      (reads : low.toNat - 128 + 128 * high.toNat = length) : LengthField length [low, high]

/-- The bytes are the item: its tag, its length and its value. -/
def Spells (item : Item) (bytes : List UInt8) : Prop :=
  ∃ field, LengthField item.value.length field ∧ bytes = item.tag :: (field ++ item.value)

/-- The bytes are the items, one after the other. -/
inductive Sequence : List Item → List UInt8 → Prop
  | nil : Sequence [] []
  | cons {item : Item} {items : List Item} {front rest : List UInt8} :
      Spells item front → Sequence items rest → Sequence (item :: items) (front ++ rest)

/-- There is no whole item at the front of the bytes. -/
def Incomplete (bytes : List UInt8) : Prop :=
  ∀ item front rest, Spells item front → bytes ≠ front ++ rest

theorem Spells.two_le_length {item : Item} {bytes : List UInt8} (spells : Spells item bytes) :
    2 ≤ bytes.length := by
  obtain ⟨field, isField, rfl⟩ := spells
  cases isField with
  | short below reads => simp
  | long above reads => simp

theorem Sequence.two_mul_length_le {items : List Item} {bytes : List UInt8}
    (spelled : Sequence items bytes) : 2 * items.length ≤ bytes.length := by
  induction spelled with
  | nil => exact le_rfl
  | cons spells _ ih =>
      have two := spells.two_le_length
      rw [List.length_cons, List.length_append]
      omega

theorem and_flag_eq_zero_iff (byte : UInt8) : byte &&& 0x80 = 0 ↔ byte.toNat < 128 := by
  have bound := byte.toNat_lt
  have bit : byte.toNat.testBit 7 = decide (128 ≤ byte.toNat) := by
    rw [Nat.testBit_eq_decide_div_mod_eq, decide_eq_decide]
    omega
  have flag : byte.toNat &&& 0x80 = (byte.toNat.testBit 7).toNat * 2 ^ 7 := Nat.and_two_pow _ 7
  rw [← UInt8.toNat_inj, UInt8.toNat_and, UInt8.toNat_zero, show (0x80 : UInt8).toNat = 0x80 from rfl,
    flag, bit]
  by_cases high : 128 ≤ byte.toNat
  · simp [high]
  · simp [high, Nat.lt_of_not_le high]

/-- Two length bytes as a number. -/
theorem long_length {low : UInt8} (above : 128 ≤ low.toNat) (high : UInt8) :
    (low &&& 0x7F).toNat ||| (high.toNat <<< 7) = low.toNat - 128 + 128 * high.toNat := by
  have bound := low.toNat_lt
  have mask : (low &&& 0x7F).toNat = low.toNat % 2 ^ 7 := by
    rw [UInt8.toNat_and]
    exact Nat.and_two_pow_sub_one_eq_mod _ 7
  have parts := Nat.two_pow_add_eq_or_of_lt (Nat.mod_lt low.toNat (by decide : 0 < 2 ^ 7)) high.toNat
  rw [mask, Nat.lor_comm, Nat.shiftLeft_eq, Nat.mul_comm, ← parts]
  omega

theorem takeValue_eq_item_iff {tag : UInt8} {length : Nat} {bytes rest : List UInt8}
    {item : Item} :
    takeValue tag length bytes = .item item rest ↔
      item.tag = tag ∧ item.value.length = length ∧ bytes = item.value ++ rest := by
  constructor
  · intro took
    unfold takeValue at took
    split at took
    · rename_i fits
      cases took
      exact ⟨rfl, List.length_take_of_le fits, (List.take_append_drop length bytes).symm⟩
    · cases took
  · rintro ⟨rfl, rfl, rfl⟩
    exact takeValue_append item.tag item.value rest

/-- An item is read exactly when its bytes are at the front. -/
theorem next_eq_item_iff {bytes rest : List UInt8} {item : Item} :
    next bytes = .item item rest ↔ ∃ front, Spells item front ∧ bytes = front ++ rest := by
  constructor
  · fun_cases next bytes with
    | case1 | case2 => nofun
    | case3 tag low tail short =>
        intro found
        obtain ⟨rfl, length, rfl⟩ := takeValue_eq_item_iff.mp found
        refine ⟨item.tag :: ([low] ++ item.value), ⟨[low], ?_, rfl⟩, rfl⟩
        exact .short (length ▸ (and_flag_eq_zero_iff low).mp short) length.symm
    | case4 => nofun
    | case5 tag low long high tail =>
        intro found
        have above : 128 ≤ low.toNat := Nat.le_of_not_lt fun below =>
          long ((and_flag_eq_zero_iff low).mpr below)
        obtain ⟨rfl, length, rfl⟩ := takeValue_eq_item_iff.mp found
        refine ⟨item.tag :: ([low, high] ++ item.value), ⟨[low, high], ?_, rfl⟩, rfl⟩
        exact .long above (length.trans (long_length above high)).symm
  · rintro ⟨_, ⟨field, isField, rfl⟩, rfl⟩
    cases isField with
    | @short low below reads =>
        have flag := (and_flag_eq_zero_iff low).mpr (by omega)
        refine (next_short flag (item.value ++ rest)).trans ?_
        exact takeValue_eq_item_iff.mpr ⟨rfl, reads.symm, rfl⟩
    | @long low high above reads =>
        have flag : low &&& 0x80 ≠ 0 := fun short =>
          absurd ((and_flag_eq_zero_iff low).mp short) (by omega)
        refine (next_long flag (high :: (item.value ++ rest))).trans ?_
        exact takeValue_eq_item_iff.mpr ⟨rfl, reads.symm.trans (long_length above high).symm, rfl⟩

theorem next_eq_finished_iff {bytes : List UInt8} : next bytes = .finished ↔ bytes = [] := by
  constructor
  · fun_cases next bytes with
    | case1 => exact fun _ => rfl
    | case2 | case4 => nofun
    | case3 | case5 =>
        unfold takeValue
        split <;> nofun
  · rintro rfl
    rfl

/-- Reading fails exactly where something is left, and no whole item. -/
theorem next_eq_malformed_iff {bytes : List UInt8} :
    next bytes = .malformed ↔ bytes ≠ [] ∧ Incomplete bytes := by
  constructor
  · intro bad
    constructor
    · intro empty
      rw [next_eq_finished_iff.mpr empty] at bad
      cases bad
    · intro item front rest spells whole
      rw [next_eq_item_iff.mpr ⟨front, spells, whole⟩] at bad
      cases bad
  · rintro ⟨some_, incomplete⟩
    cases found : next bytes with
    | malformed => rfl
    | finished => exact absurd (next_eq_finished_iff.mp found) some_
    | item item rest =>
        obtain ⟨front, spells, whole⟩ := next_eq_item_iff.mp found
        exact absurd whole (incomplete item front rest spells)

/-- The items that are read are at the front of the bytes, and behind them is
nothing, or no whole item. -/
theorem decode_sequence (bytes : List UInt8) :
    ∃ front left, bytes = front ++ left ∧ Sequence (decode bytes).1 front ∧
      if (decode bytes).2 then left = [] else left ≠ [] ∧ Incomplete left := by
  fun_induction decode bytes with
  | case1 bytes found =>
      refine ⟨[], [], ?_, .nil, rfl⟩
      rw [next_eq_finished_iff.mp found, List.append_nil]
  | case2 bytes found =>
      exact ⟨[], bytes, rfl, .nil, next_eq_malformed_iff.mp found⟩
  | case3 bytes item rest found ih =>
      obtain ⟨first, spells, rfl⟩ := next_eq_item_iff.mp found
      obtain ⟨front, left, rfl, spelled, ended⟩ := ih
      exact ⟨first ++ front, left, (List.append_assoc _ _ _).symm, .cons spells spelled, ended⟩

/-- A payload that is read to its end is the sequence of what was read. -/
theorem decode_eq_iff {bytes : List UInt8} {items : List Item} :
    decode bytes = (items, true) ↔ Sequence items bytes := by
  constructor
  · intro read
    obtain ⟨front, left, rfl, spelled, ended⟩ := decode_sequence bytes
    rw [read, if_pos rfl] at ended
    rw [read] at spelled
    rwa [ended, List.append_nil]
  · intro spelled
    induction spelled with
    | nil => exact decode_of_finished rfl
    | cons spells _ ih =>
        rw [decode_of_item (next_eq_item_iff.mpr ⟨_, spells, rfl⟩), ih]

end Tlv
