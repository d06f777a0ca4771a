import Mathlib.Data.List.Basic
import Mathlib.Tactic.Ring

/-!
# Fields at fixed places in a byte string

Numbers are written with the high byte first.  That a field stands at an offset
is what a reader of that offset needs to know, whatever comes before and after.
-/

namespace ByteFields

/-- The lowest `width` bytes of a number, the high one first. -/
def bigEndian : Nat → Nat → List UInt8
  | 0, _ => []
  | width + 1, n => UInt8.ofNat (n / 256 ^ width) :: bigEndian width n

@[simp]
theorem length_bigEndian (width n : Nat) : (bigEndian width n).length = width := by
  induction width with
  | zero => rfl
  | succ width ih => rw [bigEndian, List.length_cons, ih]

/-- The number that some bytes stand for. -/
def number (bytes : List UInt8) : Nat :=
  bytes.foldl (fun n byte => 256 * n + byte.toNat) 0

theorem foldl_bigEndian (width n start : Nat) :
    (bigEndian width n).foldl (fun n byte => 256 * n + byte.toNat) start =
      256 ^ width * start + n % 256 ^ width := by
  induction width generalizing start with
  | zero => simp [bigEndian, Nat.mod_one]
  | succ width ih =>
      have split : n % 256 ^ (width + 1) =
          256 ^ width * (n / 256 ^ width % 256) + n % 256 ^ width := by
        rw [Nat.pow_succ, Nat.mod_mul, Nat.add_comm]
      rw [bigEndian, List.foldl_cons, ih, UInt8.toNat_ofNat', split, Nat.pow_succ]
      ring

/-- What is written is read back, as far as it fits. -/
theorem number_bigEndian (width n : Nat) : number (bigEndian width n) = n % 256 ^ width := by
  rw [number, foldl_bigEndian, Nat.mul_zero, Nat.zero_add]

theorem or_shiftLeft {low high i : Nat} (bound : low < 2 ^ i) :
    low ||| high <<< i = low + high * 2 ^ i := by
  rw [Nat.or_comm, ← Nat.shiftLeft_add_eq_or_of_lt bound, Nat.shiftLeft_eq, Nat.add_comm]

/-- Two bytes that are shifted into a word. -/
theorem toNat_shiftLeft_or (high low : UInt8) :
    ((high.toUInt16 <<< 8) ||| low.toUInt16).toNat = high.toNat * 256 + low.toNat := by
  have highBound := high.toNat_lt
  have lowBound := low.toNat_lt
  simp only [UInt16.toNat_or, UInt16.toNat_shiftLeft, UInt8.toNat_toUInt16]
  rw [Nat.or_comm]
  have s : (8 : UInt16).toNat % 16 = 8 := rfl
  rw [s, Nat.mod_eq_of_lt (by rw [Nat.shiftLeft_eq]; omega), or_shiftLeft (by omega)]
  omega

/-- The number at an offset; bytes that are not there count as zero. -/
def numberAt (bytes : List UInt8) (off width : Nat) : Nat :=
  number ((List.range width).map fun i => bytes.getD (off + i) 0)

/-- The bytes at an offset begin with a field. -/
def StandsAt (bytes : List UInt8) (off : Nat) (field : List UInt8) : Prop :=
  field <+: bytes.drop off

namespace StandsAt

variable {bytes field first second : List UInt8} {off : Nat}

theorem of_append (front field rest : List UInt8) :
    StandsAt (front ++ (field ++ rest)) front.length field := by
  rw [StandsAt, List.drop_left]
  exact List.prefix_append field rest

theorem left (stands : StandsAt bytes off (first ++ second)) : StandsAt bytes off first :=
  (List.prefix_append first second).trans stands

theorem right (stands : StandsAt bytes off (first ++ second)) :
    StandsAt bytes (off + first.length) second := by
  obtain ⟨rest, split⟩ := stands
  rw [List.append_assoc] at split
  refine ⟨rest, ?_⟩
  rw [← List.drop_drop, ← split, List.drop_left]

theorem of_prefix (stands : StandsAt bytes off second) (front : first <+: second) :
    StandsAt bytes off first :=
  front.trans stands

theorem getD (stands : StandsAt bytes off field) {i : Nat} (inside : i < field.length)
    (fallback : UInt8) : bytes.getD (off + i) fallback = field.getD i fallback := by
  obtain ⟨rest, split⟩ := stands
  rw [List.getD_eq_getElem?_getD, List.getD_eq_getElem?_getD, ← List.getElem?_drop, ← split,
    List.getElem?_append_left inside]

/-- The parts of an explicit field, one after another. -/
theorem cons {byte : UInt8} (stands : StandsAt bytes off (byte :: field)) :
    bytes.getD off 0 = byte ∧ StandsAt bytes (off + 1) field :=
  ⟨stands.getD (Nat.zero_lt_succ _) 0,
    StandsAt.right (show StandsAt bytes off ([byte] ++ field) from stands)⟩

theorem numberAt {width n : Nat} (stands : StandsAt bytes off (bigEndian width n)) :
    numberAt bytes off width = n % 256 ^ width := by
  have read : ((List.range width).map fun i => bytes.getD (off + i) 0) = bigEndian width n := by
    apply List.ext_getElem
    · rw [List.length_map, List.length_range, length_bigEndian]
    · intro i _ inside
      rw [List.getElem_map, List.getElem_range, stands.getD inside,
        List.getD_eq_getElem?_getD, List.getElem?_eq_getElem inside, Option.getD_some]
  rw [ByteFields.numberAt, read, number_bigEndian]

end StandsAt

end ByteFields
