import Mathlib.Data.List.Basic

/-!
# Registers that are written one at a time

An event writes its value into one register, or into none.  What a register
holds after a run of events is the value of the last one that is for it, and
what it held before if there is none.
-/

/-- A state of registers, and events that write them. -/
structure Registers (σ κ ν ε : Type*) where
  read : σ → κ → ν
  write : σ → ε → σ
  target : ε → Option κ
  value : ε → ν

namespace Registers

variable {σ κ ν ε : Type*} [DecidableEq κ]

/-- An event writes its register and no other one, and nothing but the
registers makes up the state. -/
structure Lawful (registers : Registers σ κ ν ε) : Prop where
  read_write : ∀ state event key, registers.read (registers.write state event) key =
    if registers.target event = some key then registers.value event
    else registers.read state key
  ext : ∀ first second,
    (∀ key, registers.read first key = registers.read second key) → first = second

/-- The value that the last event for a register brings. -/
def lastValue (registers : Registers σ κ ν ε) (events : List ε) (key : κ) : Option ν :=
  (events.filter fun event => registers.target event = some key).getLast?.map registers.value

variable {registers : Registers σ κ ν ε}

theorem lastValue_append (first second : List ε) (key : κ) :
    registers.lastValue (first ++ second) key =
      (registers.lastValue second key).or (registers.lastValue first key) := by
  rw [lastValue, List.filter_append, List.getLast?_append, Option.map_or]
  rfl

theorem lastValue_eq_none {events : List ε} {key : κ}
    (others : ∀ event ∈ events, registers.target event ≠ some key) :
    registers.lastValue events key = none := by
  rw [lastValue, List.filter_eq_nil_iff.mpr]
  · rfl
  · intro event member
    simpa using others event member

theorem lastValue_singleton {event : ε} {key : κ} (target : registers.target event = some key) :
    registers.lastValue [event] key = some (registers.value event) := by
  rw [lastValue, List.filter_singleton, target]
  simp

/-- A run leaves in a register what the last event for it wrote. -/
theorem read_foldl (lawful : registers.Lawful) (events : List ε) (state : σ) (key : κ) :
    registers.read (events.foldl registers.write state) key =
      (registers.lastValue events key).getD (registers.read state key) := by
  induction events generalizing state with
  | nil => rfl
  | cons event events ih =>
      rw [List.foldl_cons, ih, lawful.read_write, ← List.singleton_append, lastValue_append,
        Option.getD_or]
      split
      · rename_i target
        rw [lastValue_singleton target, Option.getD_some]
      · rename_i other
        have silent : registers.lastValue [event] key = none := by
          apply lastValue_eq_none
          simpa using other
        rw [silent, Option.getD_none]

/-- A run that is repeated changes nothing more. -/
theorem foldl_foldl (lawful : registers.Lawful) (events : List ε) (state : σ) :
    events.foldl registers.write (events.foldl registers.write state) =
      events.foldl registers.write state := by
  apply lawful.ext
  intro key
  rw [read_foldl lawful events (events.foldl registers.write state), read_foldl lawful events state]
  cases registers.lastValue events key <;> rfl

end Registers
