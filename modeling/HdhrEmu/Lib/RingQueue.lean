import Mathlib.Data.Nat.ModEq

/-!
# Circular queues in a fixed array

A queue keeps the index of its oldest entry and the number of its entries;
the slots outside of that window hold whatever was stored there last.  The
list of the entries, oldest first, is what the operations are specified by.
-/

/-- A circular queue; its indices are in range by construction. -/
structure RingQueue (α : Type*) (capacity : Nat) where
  slots : List α
  head : Nat
  count : Nat
  slots_length : slots.length = capacity
  head_lt : head < capacity
  count_le : count ≤ capacity
  deriving DecidableEq

namespace RingQueue

variable {α : Type*} {capacity : Nat} [Inhabited α]

/-- The queue of a zeroed array. -/
def empty (α : Type*) [Inhabited α] (capacity : Nat) (positive : 0 < capacity) :
    RingQueue α capacity where
  slots := List.replicate capacity default
  head := 0
  count := 0
  slots_length := List.length_replicate
  head_lt := positive
  count_le := Nat.zero_le _

/-- The entry that is `index` places behind the oldest one. -/
def entry (queue : RingQueue α capacity) (index : Nat) : α :=
  queue.slots.getD ((queue.head + index) % capacity) default

/-- The entries, oldest first. -/
def entries (queue : RingQueue α capacity) : List α :=
  (List.range queue.count).map queue.entry

/-- Forget all entries. -/
def clear (queue : RingQueue α capacity) : RingQueue α capacity :=
  { queue with
    head := 0
    count := 0
    head_lt := Nat.zero_lt_of_lt queue.head_lt
    count_le := Nat.zero_le _ }

/-- Append an entry; a full queue stays as it is. -/
def push (queue : RingQueue α capacity) (value : α) : RingQueue α capacity :=
  if room : queue.count < capacity then
    { queue with
      slots := queue.slots.set ((queue.head + queue.count) % capacity) value
      count := queue.count + 1
      slots_length := by rw [List.length_set, queue.slots_length]
      count_le := room }
  else queue

/-- Take the oldest entry. -/
def pop? (queue : RingQueue α capacity) : Option (α × RingQueue α capacity) :=
  if queue.count = 0 then none
  else
    some (queue.entry 0,
      { queue with
        head := (queue.head + 1) % capacity
        count := queue.count - 1
        head_lt := Nat.mod_lt _ (Nat.zero_lt_of_lt queue.head_lt)
        count_le := (Nat.sub_le _ _).trans queue.count_le })

@[simp]
theorem entries_length (queue : RingQueue α capacity) :
    queue.entries.length = queue.count := by
  simp [entries]

@[simp]
theorem entries_empty (positive : 0 < capacity) :
    (empty α capacity positive).entries = [] :=
  rfl

omit [Inhabited α] in
@[simp]
theorem count_clear (queue : RingQueue α capacity) : queue.clear.count = 0 :=
  rfl

@[simp]
theorem entries_clear (queue : RingQueue α capacity) : queue.clear.entries = [] :=
  rfl

omit [Inhabited α] in
theorem count_push {queue : RingQueue α capacity} (room : queue.count < capacity)
    (value : α) : (queue.push value).count = queue.count + 1 := by
  simp [push, room]

/-- Two places of the window are different slots. -/
private theorem slot_injective {head first second capacity : Nat}
    (firstLt : first < capacity) (secondLt : second < capacity)
    (same : (head + first) % capacity = (head + second) % capacity) : first = second := by
  have cancelled : first ≡ second [MOD capacity] :=
    Nat.ModEq.add_left_cancel' head same
  rwa [Nat.ModEq, Nat.mod_eq_of_lt firstLt, Nat.mod_eq_of_lt secondLt] at cancelled

/-- A queue with room appends at the end. -/
theorem entries_push {queue : RingQueue α capacity} (room : queue.count < capacity)
    (value : α) : (queue.push value).entries = queue.entries ++ [value] := by
  have kept (index : Nat) (inside : index < queue.count) :
      (queue.push value).entry index = queue.entry index := by
    have different :
        (queue.head + queue.count) % capacity ≠ (queue.head + index) % capacity := by
      intro same
      have := slot_injective room (inside.trans room) same
      omega
    simp [entry, push, room, List.getElem?_set_ne different]
  have added : (queue.push value).entry queue.count = value := by
    have bound : (queue.head + queue.count) % capacity < queue.slots.length := by
      rw [queue.slots_length]
      exact Nat.mod_lt _ (Nat.zero_lt_of_lt room)
    simp [entry, push, room, bound]
  rw [entries, count_push room, List.range_succ, List.map_append, List.map_singleton, added,
    entries]
  congr 1
  exact List.map_congr_left fun index member => kept index (List.mem_range.mp member)

/-- Taking the oldest entry removes it from the front. -/
theorem entries_pop {queue rest : RingQueue α capacity} {value : α}
    (popped : queue.pop? = some (value, rest)) : queue.entries = value :: rest.entries := by
  simp only [pop?] at popped
  split at popped
  · cases popped
  · rename_i nonempty
    cases popped
    obtain ⟨count, more⟩ := Nat.exists_eq_succ_of_ne_zero nonempty
    simp only [entries, more, List.range_succ_eq_map, List.map_cons, List.map_map,
      Nat.succ_eq_add_one, Nat.add_sub_cancel]
    congr 1
    refine List.map_congr_left fun index _ => ?_
    simp only [Function.comp, entry, Nat.mod_add_mod, Nat.succ_eq_add_one]
    congr 2
    omega

theorem count_pop {queue rest : RingQueue α capacity} {value : α}
    (popped : queue.pop? = some (value, rest)) : queue.count = rest.count + 1 := by
  simpa using congrArg List.length (entries_pop popped)

theorem pop?_eq_none_iff {queue : RingQueue α capacity} :
    queue.pop? = none ↔ queue.count = 0 := by
  simp [pop?]

end RingQueue
