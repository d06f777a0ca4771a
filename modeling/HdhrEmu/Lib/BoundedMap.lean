import Mathlib.Data.Finmap

/-!
# Finite maps with a capacity

What a table with unique keys and room for so many of them is for: a key can be
given a new value at any time, and a new key can be added while there is room.
-/

/-- A finite map with at most `capacity` keys. -/
structure BoundedMap (κ υ : Type) (capacity : Nat) where
  entries : Finmap fun _ : κ => υ
  bounded : entries.keys.card ≤ capacity

namespace BoundedMap

variable {κ υ : Type} {capacity : Nat}

/-- The map without keys. -/
def empty : BoundedMap κ υ capacity where
  entries := ∅
  bounded := Nat.zero_le _

def size (map : BoundedMap κ υ capacity) : Nat :=
  map.entries.keys.card

variable [DecidableEq κ]

def lookup (map : BoundedMap κ υ capacity) (key : κ) : Option υ :=
  map.entries.lookup key

/-- The key is there, or there is room for it. -/
def accepts (map : BoundedMap κ υ capacity) (key : κ) : Bool :=
  (map.lookup key).isSome ∨ map.size < capacity

theorem keys_insert (entries : Finmap fun _ : κ => υ) (key : κ) (value : υ) :
    (entries.insert key value).keys = Insert.insert key entries.keys := by
  ext other
  rw [Finset.mem_insert, Finmap.mem_keys, Finmap.mem_keys, Finmap.mem_insert]

/-- The key gets the value, if it is accepted. -/
def insert (map : BoundedMap κ υ capacity) (key : κ) (value : υ) : BoundedMap κ υ capacity :=
  if accepted : map.accepts key = true then
    { entries := map.entries.insert key value
      bounded := by
        rw [keys_insert]
        rw [accepts, decide_eq_true_iff] at accepted
        rcases accepted with found | room
        · have member : key ∈ map.entries.keys :=
            Finmap.mem_keys.mpr (Finmap.lookup_isSome.mp found)
          rw [Finset.insert_eq_of_mem member]
          exact map.bounded
        · exact Nat.le_trans (Finset.card_insert_le _ _) room }
  else map

@[ext]
theorem ext_lookup {first second : BoundedMap κ υ capacity}
    (same : ∀ key, first.lookup key = second.lookup key) : first = second := by
  obtain ⟨firstEntries, _⟩ := first
  obtain ⟨secondEntries, _⟩ := second
  have entries : firstEntries = secondEntries := Finmap.ext_lookup same
  subst entries
  rfl

@[simp]
theorem lookup_empty (key : κ) : (empty : BoundedMap κ υ capacity).lookup key = none :=
  Finmap.lookup_empty key

/-- After an insertion the key has its new value, and the others what they had. -/
theorem lookup_insert {map : BoundedMap κ υ capacity} {key : κ}
    (accepted : map.accepts key = true) (value : υ) (other : κ) :
    (map.insert key value).lookup other = if other = key then some value else map.lookup other := by
  rw [insert, dif_pos accepted]
  by_cases same : other = key
  · subst same
    rw [if_pos rfl]
    exact Finmap.lookup_insert map.entries
  · rw [if_neg same]
    exact Finmap.lookup_insert_of_ne map.entries same

/-- A map without room for a new key stays as it is. -/
theorem insert_of_refused {map : BoundedMap κ υ capacity} {key : κ}
    (refused : map.accepts key = false) (value : υ) : map.insert key value = map := by
  rw [insert, dif_neg]
  rw [refused]
  exact Bool.false_ne_true

theorem refused_iff {map : BoundedMap κ υ capacity} {key : κ} :
    map.accepts key = false ↔ map.lookup key = none ∧ map.size = capacity := by
  have most : map.size ≤ capacity := map.bounded
  rw [accepts, decide_eq_false_iff_not, not_or, Option.not_isSome_iff_eq_none]
  exact and_congr_right fun _ => ⟨fun full => by omega, fun full => by omega⟩

end BoundedMap
