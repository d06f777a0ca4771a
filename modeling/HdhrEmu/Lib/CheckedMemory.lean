import Mathlib.Data.List.Basic

/-!
# Checked access to arrays

A program that reads and writes arrays at computed places, in which an access
outside of what is allowed is an error of its own.  A run that ends without one
has stayed inside.
-/

namespace CheckedMemory

/-- The place of a forbidden access. -/
inductive Fault
  | read (place : Nat)
  | write (place : Nat)
  deriving DecidableEq, Repr

abbrev Checked := Except Fault

variable {α : Type}

/-- Read a cell that is in the array and below the limit. -/
def load (cells : List α) (limit place : Nat) : Checked α :=
  if inside : place < cells.length ∧ place < limit then .ok (cells.get ⟨place, inside.1⟩)
  else .error (.read place)

/-- Write a cell of the array. -/
def store (cells : List α) (place : Nat) (value : α) : Checked (List α) :=
  if place < cells.length then .ok (cells.set place value) else .error (.write place)

/-- A run without a fault, with what it returns. -/
def Returns (run : Checked α) (result : α → Prop) : Prop :=
  ∃ value, run = .ok value ∧ result value

@[simp]
theorem ok_bind {β : Type} (value : α) (next : α → Checked β) :
    (Except.ok value >>= next : Checked β) = next value :=
  rfl

theorem load_eq {cells : List α} {limit place : Nat} (there : place < cells.length)
    (allowed : place < limit) (fallback : α) :
    load cells limit place = .ok (cells.getD place fallback) := by
  rw [load, dif_pos ⟨there, allowed⟩, List.getD_eq_getElem?_getD, List.getElem?_eq_getElem there,
    Option.getD_some]
  rfl

theorem store_eq {cells : List α} {place : Nat} (there : place < cells.length) (value : α) :
    store cells place value = .ok (cells.set place value) :=
  if_pos there

/-- Cells from a place on are overwritten, and the others stay. -/
def overwrite (cells : List α) (place : Nat) (new : List α) : List α :=
  cells.take place ++ (new ++ cells.drop (place + new.length))

@[simp]
theorem overwrite_nil (cells : List α) (place : Nat) : overwrite cells place [] = cells := by
  rw [overwrite, List.nil_append, List.length_nil, Nat.add_zero, List.take_append_drop]

theorem overwrite_zero (cells new : List α) :
    overwrite cells 0 new = new ++ cells.drop new.length := by
  rw [overwrite, List.take_zero, List.nil_append, Nat.zero_add]

/-- Writing one cell and then the ones behind it. -/
theorem overwrite_set {cells : List α} {place : Nat} (there : place < cells.length) (value : α)
    (new : List α) :
    overwrite (cells.set place value) (place + 1) new = overwrite cells place (value :: new) := by
  have front : (cells.set place value).take (place + 1) = cells.take place ++ [value] := by
    rw [List.take_add_one, List.take_set_of_le (Nat.le_refl place), List.getElem?_set_self there]
    rfl
  have behind : (cells.set place value).drop (place + 1 + new.length) =
      cells.drop (place + 1 + new.length) :=
    List.drop_set_of_lt (by omega)
  rw [overwrite, overwrite, front, behind, List.append_assoc, List.length_cons,
    Nat.add_right_comm place]
  rfl

theorem length_overwrite {cells : List α} {place : Nat} {new : List α}
    (room : place + new.length ≤ cells.length) :
    (overwrite cells place new).length = cells.length := by
  rw [overwrite, List.length_append, List.length_append, List.length_take, List.length_drop]
  omega

end CheckedMemory
