import HdhrEmu.Lib.CheckedMemory
import HdhrEmu.Lib.CString
import Mathlib.Tactic.SplitIfs

/-!
# Texts that grow in a buffer

A program appends formatted texts at an offset into allocated memory, and
passes `snprintf` what is left of it.  The offset grows by the length of the
whole text even when `snprintf` had to cut it off, and what is left is computed
without a check; a write behind the end of the memory is a fault.
-/

namespace CheckedMemory

/-- What the memory manager does: which sizes it grants, and what the cells of
a new block hold. -/
structure Heap where
  grants : Nat → Bool
  junk : Nat → Char

namespace Heap

def malloc (heap : Heap) (size : Nat) : Option (List Char) :=
  if heap.grants size then some ((List.range size).map heap.junk) else none

/-- A larger block with the same cells in front. -/
def realloc (heap : Heap) (cells : List Char) (size : Nat) : Option (List Char) :=
  if heap.grants size then some (cells ++ ((List.range size).map heap.junk).drop cells.length)
  else none

theorem refused_of_malloc {heap : Heap} {size : Nat} (failed : heap.malloc size = none) :
    ∃ size, heap.grants size = false := by
  refine ⟨size, Bool.eq_false_iff.mpr fun granted => ?_⟩
  rw [malloc, if_pos granted] at failed
  cases failed

end Heap

def terminator : Char := Char.ofNat 0

/-- `snprintf(cells + place, size, "%s", text)`. -/
def snprintf (cells : List Char) (place size : Nat) (text : CStr) : Checked (List Char) :=
  if size = 0 then .ok cells
  else if place + (text.take (size - 1)).length < cells.length then
    .ok (overwrite cells place (text.take (size - 1) ++ [terminator]))
  else .error (.write (max place cells.length))

/-- The C string at the beginning of the cells. -/
def cString (cells : List Char) : Checked CStr :=
  if terminator ∈ cells then .ok (cells.takeWhile (· ≠ terminator)) else .error (.read cells.length)

/-- A block and the offset of the next text. -/
structure TextBuffer where
  cells : List Char
  off : Nat

namespace TextBuffer

def cap (buffer : TextBuffer) : Nat :=
  buffer.cells.length

/-- `cap - off`, as a `size_t`. -/
def left (buffer : TextBuffer) : Nat :=
  (((buffer.cap : Int) - buffer.off) % 2 ^ 64).toNat

def append (buffer : TextBuffer) (text : CStr) : Checked TextBuffer :=
  (snprintf buffer.cells buffer.off buffer.left text).map fun cells =>
    ⟨cells, buffer.off + text.length⟩

/-- `cells[off++] = character`. -/
def put (buffer : TextBuffer) (character : Char) : Checked TextBuffer :=
  (store buffer.cells buffer.off character).map fun cells => ⟨cells, buffer.off + 1⟩

/-- `if (cap - off < room)`, the block is reallocated with `size` cells. -/
def reserve (heap : Heap) (room size : Nat) (buffer : TextBuffer) : Option TextBuffer :=
  if buffer.left < room then
    (heap.realloc buffer.cells size).map fun cells => ⟨cells, buffer.off⟩
  else some buffer

/-- The buffer holds `text`, and room for its terminator. -/
structure Holds (buffer : TextBuffer) (text : CStr) : Prop where
  off : buffer.off = text.length
  room : text.length < buffer.cap
  small : buffer.cap < 2 ^ 64
  text : buffer.cells.take text.length = text

theorem Holds.left {buffer : TextBuffer} {text : CStr} (holds : buffer.Holds text) :
    buffer.left = buffer.cap - text.length := by
  have room := holds.room
  have small := holds.small
  rw [TextBuffer.left, holds.off, Int.emod_eq_of_lt (by omega) (by omega)]
  omega

/-- Nothing has been written to an array of its own. -/
theorem holds_nil {cells : List Char} (positive : 0 < cells.length)
    (small : cells.length < 2 ^ 64) : (⟨cells, 0⟩ : TextBuffer).Holds [] :=
  ⟨rfl, positive, small, rfl⟩

theorem holds_malloc {heap : Heap} {size : Nat} {cells : List Char}
    (granted : heap.malloc size = some cells) (positive : 0 < size) (small : size < 2 ^ 64) :
    (⟨cells, 0⟩ : TextBuffer).Holds [] ∧ cells.length = size := by
  unfold Heap.malloc at granted
  split at granted
  · cases granted
    have length : ((List.range size).map heap.junk).length = size := by simp
    refine ⟨holds_nil ?_ ?_, length⟩
    · rw [length]
      exact positive
    · rw [length]
      exact small
  · cases granted

/-- What a buffer holds is determined by its offset. -/
theorem Holds.unique {buffer : TextBuffer} {first second : CStr} (one : buffer.Holds first)
    (other : buffer.Holds second) : first = second := by
  have lengths : first.length = second.length := one.off.symm.trans other.off
  rw [← one.text, ← other.text, lengths]

/-- A text that fits is appended as a whole, and its terminator behind it. -/
theorem Holds.append {buffer : TextBuffer} {text : CStr} (holds : buffer.Holds text) {more : CStr}
    (fits : text.length + more.length < buffer.cap) :
    ∃ next, buffer.append more = .ok next ∧ next.Holds (text ++ more) ∧ next.cap = buffer.cap ∧
      next.cells[(text ++ more).length]? = some terminator := by
  have whole : more.take (buffer.left - 1) = more := by
    apply List.take_of_length_le
    rw [holds.left]
    omega
  have some_ : buffer.left ≠ 0 := by
    rw [holds.left]
    have := holds.room
    omega
  have written : (text.length + (more ++ [terminator]).length) ≤ buffer.cells.length := by
    rw [List.length_append, List.length_singleton]
    exact fits
  have length := length_overwrite written
  have cells : overwrite buffer.cells text.length (more ++ [terminator]) =
      (text ++ more) ++ terminator :: buffer.cells.drop (text.length + (more ++ [terminator]).length) := by
    rw [overwrite, holds.text]
    simp
  refine ⟨⟨overwrite buffer.cells text.length (more ++ [terminator]), text.length + more.length⟩,
    ?_, ⟨?_, ?_, ?_, ?_⟩, ?_, ?_⟩
  · rw [TextBuffer.append, snprintf, if_neg some_, whole, holds.off,
      if_pos (show _ < buffer.cells.length from fits)]
    rfl
  · rw [List.length_append]
  · rw [cap, length, List.length_append]
    exact fits
  · rw [cap, length]
    exact holds.small
  · rw [cells]
    exact List.take_left' rfl
  · rw [cap, length]
    rfl
  · rw [cells, List.getElem?_append_right (Nat.le_refl _), Nat.sub_self]
    rfl

/-- A character is written behind the text. -/
theorem Holds.put {buffer : TextBuffer} {text : CStr} (holds : buffer.Holds text)
    (character : Char) (fits : text.length + 1 < buffer.cap) :
    ∃ next, buffer.put character = .ok next ∧ next.Holds (text ++ [character]) ∧
      next.cap = buffer.cap := by
  have there : text.length < buffer.cells.length := holds.room
  have front : (buffer.cells.set text.length character).take (text.length + 1) =
      text ++ [character] := by
    rw [List.take_add_one, List.take_set_of_le (Nat.le_refl _), List.getElem?_set_self there,
      holds.text]
    rfl
  have length : (buffer.cells.set text.length character).length = buffer.cells.length :=
    List.length_set
  refine ⟨⟨buffer.cells.set text.length character, text.length + 1⟩, ?_, ⟨?_, ?_, ?_, ?_⟩, length⟩
  · rw [TextBuffer.put, holds.off, store_eq there]
    rfl
  · rw [List.length_append, List.length_singleton]
  · rw [cap, length, List.length_append, List.length_singleton]
    exact fits
  · rw [cap, length]
    exact holds.small
  · rw [List.length_append, List.length_singleton]
    exact front

/-- A buffer in which there is not enough room left is made larger. -/
theorem Holds.reserve {buffer : TextBuffer} {text : CStr} (holds : buffer.Holds text)
    {heap : Heap} {room size : Nat} {next : TextBuffer}
    (reserved : buffer.reserve heap room size = some next) (larger : buffer.cap ≤ size)
    (small : size < 2 ^ 64) (enough : text.length + room ≤ size) :
    next.Holds text ∧ text.length + room ≤ next.cap ∧
      (next.cap = buffer.cap ∨ buffer.cap < text.length + room ∧ next.cap = size) := by
  have inside := holds.room
  have remaining := holds.left
  unfold TextBuffer.reserve at reserved
  split at reserved
  · rename_i tight
    obtain ⟨cells, granted, rfl⟩ := Option.map_eq_some_iff.mp reserved
    unfold Heap.realloc at granted
    split at granted
    · cases granted
      have length : (buffer.cells ++ ((List.range size).map heap.junk).drop buffer.cells.length).length
          = size := by
        rw [List.length_append, List.length_drop, List.length_map, List.length_range]
        unfold cap at larger
        omega
      refine ⟨⟨holds.off, ?_, ?_, ?_⟩, ?_, Or.inr ⟨by omega, length⟩⟩
      · rw [cap, length]
        omega
      · rw [cap, length]
        exact small
      · rw [List.take_append_of_le_length (Nat.le_of_lt inside)]
        exact holds.text
      · rw [cap, length]
        exact enough
    · cases granted
  · cases reserved
    exact ⟨holds, by omega, Or.inl rfl⟩

/-- A reallocation fails only where the heap refuses a size. -/
theorem refused_of_reserve {buffer : TextBuffer} {heap : Heap} {room size : Nat}
    (failed : buffer.reserve heap room size = none) : ∃ size, heap.grants size = false := by
  unfold TextBuffer.reserve at failed
  split at failed
  · refine ⟨size, Bool.eq_false_iff.mpr fun granted => ?_⟩
    rw [Heap.realloc, if_pos granted] at failed
    cases failed
  · cases failed

/-- What a reader of the terminated text sees. -/
theorem Holds.cString {buffer : TextBuffer} {text : CStr} (holds : buffer.Holds text)
    (terminated : buffer.cells[text.length]? = some terminator) (clean : terminator ∉ text) :
    CheckedMemory.cString buffer.cells = .ok text := by
  have split : buffer.cells = text ++ terminator :: buffer.cells.drop (text.length + 1) := by
    conv_lhs => rw [← List.take_append_drop text.length buffer.cells, holds.text]
    rw [List.drop_eq_getElem?_toList_append, terminated]
    rfl
  rw [CheckedMemory.cString, if_pos (by rw [split]; simp), split]
  have read : (text ++ terminator :: buffer.cells.drop (text.length + 1)).takeWhile (· ≠ terminator) = text := by
    rw [List.takeWhile_append_of_pos, List.takeWhile_cons_of_neg (by simp), List.append_nil]
    intro character member
    simp only [ne_eq, decide_not, Bool.not_eq_true', decide_eq_false_iff_not]
    rintro rfl
    exact clean member
  rw [read]

end TextBuffer

end CheckedMemory
