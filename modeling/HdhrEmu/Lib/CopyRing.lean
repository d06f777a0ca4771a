import Mathlib.Data.List.Rotate

/-!
# Rings that are copied into and out of

A ring in a fixed array, with the place behind the newest element, the place of
the oldest one, and their number.  Elements go in and out in blocks; a block
that reaches the end of the array is copied in two parts.
-/

structure CopyRing (α : Type*) where
  cells : List α
  head : Nat
  tail : Nat
  fill : Nat
  deriving DecidableEq

namespace CopyRing

variable {α : Type*} {capacity : Nat}

/-- The array after a block has been copied to a place in it. -/
def copyTo (cells : List α) (place : Nat) (block : List α) : List α :=
  cells.take place ++ block ++ cells.drop (place + block.length)

/-- Store a block behind the newest element; the caller has made sure of the
room. -/
def store (capacity : Nat) (ring : CopyRing α) (block : List α) : CopyRing α :=
  let first := min (capacity - ring.head) block.length
  let cells := copyTo ring.cells ring.head (block.take first)
  { cells := if first < block.length then copyTo cells 0 (block.drop first) else cells
    head := (ring.head + block.length) % capacity
    tail := ring.tail
    fill := ring.fill + block.length }

/-- Take the oldest elements, as many as there are but at most `limit`. -/
def take (capacity : Nat) (ring : CopyRing α) (limit : Nat) : List α × CopyRing α :=
  let count := min limit ring.fill
  let first := min (capacity - ring.tail) count
  ((ring.cells.drop ring.tail).take first ++
      (if first < count then ring.cells.take (count - first) else []),
    { ring with
      tail := (ring.tail + count) % capacity
      fill := ring.fill - count })

/-- The elements, oldest first. -/
def contents (ring : CopyRing α) : List α :=
  (ring.cells.rotate ring.tail).take ring.fill

structure Valid (capacity : Nat) (ring : CopyRing α) : Prop where
  length_cells : ring.cells.length = capacity
  tail_lt : ring.tail < capacity
  fill_le : ring.fill ≤ capacity
  head_eq : ring.head = (ring.tail + ring.fill) % capacity

theorem Valid.head_lt {ring : CopyRing α} (valid : ring.Valid capacity) :
    ring.head < capacity := by
  rw [valid.head_eq]
  exact Nat.mod_lt _ (Nat.zero_lt_of_lt valid.tail_lt)

theorem Valid.length_contents {ring : CopyRing α} (valid : ring.Valid capacity) :
    ring.contents.length = ring.fill := by
  have fill_le := valid.fill_le
  rw [contents, List.length_take, List.length_rotate, valid.length_cells]
  omega

theorem length_copyTo {cells block : List α} {place : Nat}
    (inside : place + block.length ≤ cells.length) :
    (copyTo cells place block).length = cells.length := by
  simp only [copyTo, List.length_append, List.length_take, List.length_drop]
  omega

theorem getElem?_copyTo {cells block : List α} {place : Nat}
    (inside : place + block.length ≤ cells.length) (index : Nat) :
    (copyTo cells place block)[index]? =
      if place ≤ index ∧ index < place + block.length then block[index - place]?
      else cells[index]? := by
  have front : (cells.take place ++ block).length = place + block.length := by
    rw [List.length_append, List.length_take]
    omega
  unfold copyTo
  by_cases low : index < place
  · rw [if_neg (by omega), List.append_assoc, List.getElem?_append_left
      (by rw [List.length_take]; omega), List.getElem?_take_of_lt low]
  · by_cases high : index < place + block.length
    · rw [if_pos (by omega), List.getElem?_append_left (by omega),
        List.getElem?_append_right (by rw [List.length_take]; omega), List.length_take,
        Nat.min_eq_left (by omega)]
    · rw [if_neg (by omega), List.getElem?_append_right (by omega), front, List.getElem?_drop]
      congr 1
      omega

/-- What is taken is the front of the contents. -/
theorem Valid.taken {ring : CopyRing α} (valid : ring.Valid capacity) (limit : Nat) :
    (ring.take capacity limit).1 = ring.contents.take limit := by
  have tail_lt := valid.tail_lt
  have fill_le := valid.fill_le
  have length_cells := valid.length_cells
  have back : (ring.cells.drop ring.tail).length = capacity - ring.tail := by
    rw [List.length_drop, length_cells]
  unfold contents take
  simp only
  rw [List.take_take, List.rotate_eq_drop_append_take (by omega), List.take_append, back]
  congr 1
  · rw [← back, Nat.min_comm (List.length _), ← List.take_eq_take_min]
  · by_cases wraps : min (capacity - ring.tail) (min limit ring.fill) < min limit ring.fill
    · rw [if_pos wraps, List.take_take]
      congr 1
      omega
    · rw [if_neg wraps, Nat.sub_eq_zero_of_le (by omega), List.take_zero]

theorem Valid.take {ring : CopyRing α} (valid : ring.Valid capacity) (limit : Nat) :
    (ring.take capacity limit).2.Valid capacity := by
  have fill_le := valid.fill_le
  refine ⟨valid.length_cells, Nat.mod_lt _ (Nat.zero_lt_of_lt valid.tail_lt), ?_, ?_⟩
  · simp only [CopyRing.take]
    omega
  · simp only [CopyRing.take]
    rw [valid.head_eq, Nat.mod_add_mod]
    congr 1
    omega

/-- What stays is the rest of the contents. -/
theorem Valid.contents_take {ring : CopyRing α} (valid : ring.Valid capacity) (limit : Nat) :
    (ring.take capacity limit).2.contents = ring.contents.drop limit := by
  have tail_lt := valid.tail_lt
  have fill_le := valid.fill_le
  have length_cells := valid.length_cells
  have turned : (ring.cells.rotate ring.tail).length = capacity := by
    rw [List.length_rotate, length_cells]
  unfold contents CopyRing.take
  simp only
  rw [← length_cells, List.rotate_mod, ← List.rotate_rotate, List.drop_take,
    List.rotate_eq_drop_append_take (by omega), List.take_append_of_le_length
      (by rw [List.length_drop]; omega)]
  by_cases all : ring.fill ≤ limit
  · rw [Nat.sub_eq_zero_of_le all, Nat.min_eq_right all, Nat.sub_self, List.take_zero,
      List.take_zero]
  · rw [Nat.min_eq_left (by omega)]

theorem Valid.take_append_contents {ring : CopyRing α} (valid : ring.Valid capacity)
    (limit : Nat) :
    (ring.take capacity limit).1 ++ (ring.take capacity limit).2.contents = ring.contents := by
  rw [valid.taken, valid.contents_take, List.take_append_drop]

/-- The cells after a block has been stored. -/
theorem Valid.getElem?_store {ring : CopyRing α} (valid : ring.Valid capacity) {block : List α}
    (room : ring.fill + block.length ≤ capacity) (index : Nat) :
    (ring.store capacity block).cells[index]? =
      if ring.head ≤ index ∧ index < ring.head + block.length ∧ index < capacity then
        block[index - ring.head]?
      else if index + capacity < ring.head + block.length then
        block[index + capacity - ring.head]?
      else ring.cells[index]? := by
  have head_lt := valid.head_lt
  have length_cells := valid.length_cells
  have first_length : (block.take (min (capacity - ring.head) block.length)).length =
      min (capacity - ring.head) block.length := by
    rw [List.length_take]
    omega
  have inside : ring.head + (block.take (min (capacity - ring.head) block.length)).length ≤
      ring.cells.length := by omega
  have first := getElem?_copyTo inside index
  have first_size := length_copyTo inside
  rw [first_length] at first
  have rest_length : (block.drop (min (capacity - ring.head) block.length)).length =
      block.length - min (capacity - ring.head) block.length := List.length_drop
  simp only [store]
  by_cases wraps : min (capacity - ring.head) block.length < block.length
  · rw [if_pos wraps, getElem?_copyTo (by omega), rest_length, first]
    have whole : min (capacity - ring.head) block.length = capacity - ring.head := by omega
    rw [whole]
    by_cases behind : ring.head ≤ index ∧ index < ring.head + block.length ∧ index < capacity
    · rw [if_pos behind, if_neg (by omega), if_pos (by omega),
        List.getElem?_take_of_lt (by omega)]
    · rw [if_neg behind]
      by_cases front : index + capacity < ring.head + block.length
      · rw [if_pos front, if_pos (by omega), List.getElem?_drop]
        congr 1
        omega
      · rw [if_neg front, if_neg (by omega), if_neg (by omega)]
  · rw [if_neg wraps, first]
    have whole : min (capacity - ring.head) block.length = block.length := by omega
    rw [whole, List.take_length]
    by_cases behind : ring.head ≤ index ∧ index < ring.head + block.length ∧ index < capacity
    · rw [if_pos behind, if_pos (by omega)]
    · rw [if_neg behind, if_neg (by omega), if_neg (by omega)]

theorem Valid.length_store {ring : CopyRing α} (valid : ring.Valid capacity) {block : List α}
    (room : ring.fill + block.length ≤ capacity) :
    (ring.store capacity block).cells.length = capacity := by
  have head_lt := valid.head_lt
  have length_cells := valid.length_cells
  have inside : ring.head + (block.take (min (capacity - ring.head) block.length)).length ≤
      ring.cells.length := by
    rw [List.length_take]
    omega
  have first_size := length_copyTo inside
  simp only [store]
  split
  · rw [length_copyTo (by rw [List.length_drop]; omega), first_size, length_cells]
  · rw [first_size, length_cells]

theorem Valid.store {ring : CopyRing α} (valid : ring.Valid capacity) {block : List α}
    (room : ring.fill + block.length ≤ capacity) : (ring.store capacity block).Valid capacity where
  length_cells := valid.length_store room
  tail_lt := valid.tail_lt
  fill_le := room
  head_eq := by
    simp only [CopyRing.store]
    rw [valid.head_eq, Nat.mod_add_mod, Nat.add_assoc]

/-- A place of the window, without a remainder. -/
theorem place_eq {tail index capacity : Nat} (tail_lt : tail < capacity)
    (bound : index ≤ capacity) :
    (index + tail) % capacity =
      if index + tail < capacity then index + tail else index + tail - capacity := by
  by_cases inside : index + tail < capacity
  · rw [if_pos inside, Nat.mod_eq_of_lt inside]
  · rw [if_neg inside, Nat.mod_eq_sub_mod (by omega), Nat.mod_eq_of_lt (by omega)]

/-- A block is stored behind the contents. -/
theorem Valid.contents_store {ring : CopyRing α} (valid : ring.Valid capacity) {block : List α}
    (room : ring.fill + block.length ≤ capacity) :
    (ring.store capacity block).contents = ring.contents ++ block := by
  have tail_lt := valid.tail_lt
  have fill_le := valid.fill_le
  have length_cells := valid.length_cells
  have length_store := valid.length_store room
  have head := valid.head_eq
  rw [Nat.add_comm, place_eq tail_lt fill_le] at head
  apply List.ext_getElem?
  intro index
  by_cases inside : index < ring.fill + block.length
  · have bound : index ≤ capacity := by omega
    have place := place_eq tail_lt bound
    have left : (ring.store capacity block).contents[index]? =
        (ring.store capacity block).cells[(index + ring.tail) % capacity]? := by
      change (List.take (ring.fill + block.length) _)[index]? = _
      rw [List.getElem?_take_of_lt inside, List.getElem?_rotate (by omega), length_store]
      rfl
    rw [left, valid.getElem?_store room, place]
    by_cases old : index < ring.fill
    · have right : ring.contents[index]? = ring.cells[(index + ring.tail) % capacity]? := by
        rw [contents, List.getElem?_take_of_lt old, List.getElem?_rotate (by omega), length_cells]
      rw [List.getElem?_append_left (by rw [valid.length_contents]; exact old), right, place]
      split_ifs at head ⊢ <;> first | omega | rfl
    · rw [List.getElem?_append_right (by rw [valid.length_contents]; omega),
        valid.length_contents]
      split_ifs at head ⊢ <;> first | omega | (congr 1; omega)
  · have size : (ring.store capacity block).contents.length = ring.fill + block.length :=
      (valid.store room).length_contents
    rw [List.getElem?_eq_none (by omega),
      List.getElem?_eq_none (by rw [List.length_append, valid.length_contents]; omega)]

end CopyRing
