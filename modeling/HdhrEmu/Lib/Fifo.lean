import Mathlib.Data.List.Basic

/-!
# Bounded queues that start over when they are full

A value that is added to a full queue takes the place of everything in it.  A
history of such a queue lists the additions and the removals, each removal with
the value it returned; a history that the queue allows determines what is left.
Values leave in the order in which they came, whether they are taken or dropped.
-/

namespace Fifo

variable {α : Type*}

inductive Op (α : Type*)
  | enqueue (value : α)
  /-- A removal that returned `value`. -/
  | dequeue (value : α)
  deriving DecidableEq

/-- The values added by a history, the oldest first. -/
def enqueued (ops : List (Op α)) : List α :=
  ops.filterMap fun
    | .enqueue value => some value
    | .dequeue _ => none

/-- The values returned in a history, the oldest first. -/
def dequeued (ops : List (Op α)) : List α :=
  ops.filterMap fun
    | .enqueue _ => none
    | .dequeue value => some value

section Queue

variable (capacity : Nat)

def enqueue (queue : List α) (value : α) : List α :=
  if queue.length < capacity then queue ++ [value] else [value]

/-- What an addition drops. -/
def backlog (queue : List α) : List α :=
  if queue.length < capacity then [] else queue

/-- The queue after one operation, or nothing if the oldest value is not the
one that was returned. -/
def step [DecidableEq α] (queue : List α) : Op α → Option (List α)
  | .enqueue value => some (enqueue capacity queue value)
  | .dequeue value =>
      match queue with
      | first :: rest => if first = value then some rest else none
      | [] => none

def run [DecidableEq α] (queue : List α) : List (Op α) → Option (List α)
  | [] => some queue
  | op :: ops => (step capacity queue op).bind fun next => run next ops

/-- Why a value has left the queue. -/
inductive Departure
  | taken
  | dropped
  deriving DecidableEq

/-- The values that have left the queue, in their order. -/
def departures (queue : List α) : List (Op α) → List (Departure × α)
  | [] => []
  | .enqueue value :: ops =>
      (backlog capacity queue).map (Prod.mk .dropped) ++
        departures (enqueue capacity queue value) ops
  | .dequeue value :: ops => (.taken, value) :: departures queue.tail ops

/-- What becomes of a value that waits in the queue. -/
inductive Passage
  /-- It waits on, behind `ahead` others. -/
  | waits (ahead : Nat)
  | leaves (how : Departure)
  deriving DecidableEq

/-- What an operation means for the value that waits behind `ahead` others. -/
def pass (queue : List α) (ahead : Nat) : Op α → Passage
  | .enqueue _ => if queue.length < capacity then .waits ahead else .leaves .dropped
  | .dequeue _ =>
      match ahead with
      | 0 => .leaves .taken
      | nearer + 1 => .waits nearer

end Queue

variable {capacity : Nat}

variable (capacity) in
theorem enqueue_eq (queue : List α) (value : α) :
    queue ++ [value] = backlog capacity queue ++ enqueue capacity queue value := by
  unfold backlog enqueue
  split <;> rfl

theorem length_enqueue_le (positive : 0 < capacity) (queue : List α) (value : α) :
    (enqueue capacity queue value).length ≤ capacity := by
  unfold enqueue
  split
  · rw [List.length_append, List.length_singleton]
    omega
  · exact positive

/-- The values that were taken are those that the removals returned. -/
theorem taken_departures (queue : List α) (ops : List (Op α)) :
    ((departures capacity queue ops).filter fun departure => departure.1 = .taken).map Prod.snd =
      dequeued ops := by
  induction ops generalizing queue with
  | nil => rfl
  | cons op ops ih =>
      cases op with
      | enqueue value =>
          have nothing : ((backlog capacity queue).map (Prod.mk Departure.dropped)).filter
              (fun departure => departure.1 = .taken) = [] := by
            rw [List.filter_eq_nil_iff]
            intro departure member
            obtain ⟨value, -, rfl⟩ := List.mem_map.mp member
            simp
          rw [departures, List.filter_append, nothing, List.nil_append, ih]
          rfl
      | dequeue value =>
          rw [departures, List.filter_cons_of_pos (by exact rfl), List.map_cons, ih]
          rfl

variable [DecidableEq α]

theorem step_dequeue {queue next : List α} {value : α}
    (stepTo : step capacity queue (.dequeue value) = some next) : queue = value :: next := by
  cases queue with
  | nil => cases stepTo
  | cons first rest =>
      rw [step] at stepTo
      split at stepTo
      · rename_i same
        cases stepTo
        rw [same]
      · cases stepTo

/-- A value that waits on is where it is said to be. -/
theorem step_waits {queue next : List α} {op : Op α} {value : α} {ahead later : Nat}
    (there : queue[ahead]? = some value) (stepTo : step capacity queue op = some next)
    (waits : pass capacity queue ahead op = .waits later) : next[later]? = some value := by
  cases op with
  | enqueue other =>
      cases stepTo
      rw [pass] at waits
      split at waits
      · rename_i room
        cases waits
        have bound := (List.getElem?_eq_some_iff.mp there).1
        rw [enqueue, if_pos room, List.getElem?_append_left bound, there]
      · cases waits
  | dequeue first =>
      rw [step_dequeue stepTo] at there
      cases ahead with
      | zero => cases waits
      | succ nearer =>
          cases waits
          exact there

/-- A value that is taken is the one that the removal returns. -/
theorem step_taken {queue next : List α} {op : Op α} {value : α} {ahead : Nat}
    (there : queue[ahead]? = some value) (stepTo : step capacity queue op = some next)
    (taken : pass capacity queue ahead op = .leaves .taken) : op = .dequeue value := by
  cases op with
  | enqueue other =>
      rw [pass] at taken
      split at taken <;> cases taken
  | dequeue first =>
      rw [step_dequeue stepTo] at there
      cases ahead with
      | zero =>
          cases there
          rfl
      | succ nearer => cases taken

theorem run_append (queue : List α) (first second : List (Op α)) :
    run capacity queue (first ++ second) =
      (run capacity queue first).bind fun next => run capacity next second := by
  induction first generalizing queue with
  | nil => rfl
  | cons op ops ih =>
      rw [List.cons_append, run, run, Option.bind_assoc]
      congr 1
      ext next : 1
      exact ih next

theorem run_singleton (queue : List α) (op : Op α) :
    run capacity queue [op] = step capacity queue op :=
  Option.bind_fun_some _

theorem length_le_of_run (positive : 0 < capacity) {queue left : List α} {ops : List (Op α)}
    (short : queue.length ≤ capacity) (ran : run capacity queue ops = some left) :
    left.length ≤ capacity := by
  induction ops generalizing queue with
  | nil =>
      cases ran
      exact short
  | cons op ops ih =>
      obtain ⟨next, stepTo, rest⟩ := Option.bind_eq_some_iff.mp ran
      apply ih _ rest
      cases op with
      | enqueue value =>
          cases stepTo
          exact length_enqueue_le positive queue value
      | dequeue value =>
          rw [step_dequeue stepTo, List.length_cons] at short
          omega

/-- Nothing is lost but what is dropped, nothing comes twice, and nothing
overtakes: what was there or was added is what has left, followed by what is
there. -/
theorem run_conserves {queue left : List α} {ops : List (Op α)}
    (ran : run capacity queue ops = some left) :
    queue ++ enqueued ops = (departures capacity queue ops).map Prod.snd ++ left := by
  induction ops generalizing queue with
  | nil =>
      cases ran
      exact List.append_nil _
  | cons op ops ih =>
      obtain ⟨next, stepTo, rest⟩ := Option.bind_eq_some_iff.mp ran
      cases op with
      | enqueue value =>
          cases stepTo
          have dropped : ((backlog capacity queue).map (Prod.mk Departure.dropped)).map Prod.snd =
              backlog capacity queue := by
            rw [List.map_map]
            exact List.map_id _
          calc
            queue ++ enqueued (.enqueue value :: ops) = (queue ++ [value]) ++ enqueued ops := by
              rw [List.append_assoc]
              rfl
            _ = backlog capacity queue ++ (enqueue capacity queue value ++ enqueued ops) := by
              rw [enqueue_eq capacity, List.append_assoc]
            _ = _ := by
              rw [ih rest, departures, List.map_append, dropped, List.append_assoc]
      | dequeue value =>
          rw [step_dequeue stepTo, departures, List.tail_cons]
          exact congrArg (value :: ·) (ih rest)

end Fifo
