import HdhrEmu.ScanQueue
import HdhrEmu.Lib.Fifo
import HdhrEmu.Lib.Trail

/-!
# The queue of a tuner as a list

The threads of `channel` SETs write the circular array `pending_queue`, and the
scan worker reads it.  Each access is an operation on a list of frequencies and
channel numbers; what the accesses of a run make of that list is what the array
holds at its end.
-/

namespace HdhrEmu

open Interleaving

/-- `freq` and `rf_channel` of an entry. -/
def Pending.request (entry : Pending) : UInt32 × Int :=
  (entry.freq, entry.rfChannel)

/-- What is in `pending_queue`, the oldest entry first. -/
def Tuner.pending (t : Tuner) : List (UInt32 × Int) :=
  t.pendingQueue.entries.map Pending.request

/-- What an action does to the queue: an enqueue by the SET that is accepted, a
dequeue by the worker, with the entry that it reads. -/
def queueMark : Marking World Frame (Fifo.Op (UInt32 × Int)) := fun w frame =>
  match frame with
  | .set (.channelQueue request) =>
      if w.tuner.activeStream = none ∧ w.tuner.scanWorkerActive = true then
        some (.enqueue (request.value.freq, request.value.rfChannel))
      else none
  | .scan (.scanDequeue _) =>
      w.tuner.pendingQueue.pop?.map fun popped => .dequeue popped.1.request
  | _ => none

namespace Tuner

theorem length_pending (t : Tuner) : t.pending.length = t.pendingQueue.count := by
  rw [pending, List.length_map, RingQueue.entries_length]

/-- A SET adds to the queue, or replaces everything in a full one. -/
theorem pending_channelQueue (t : Tuner) (delivery : DeliverySystem) (value : ChannelValue) :
    (t.channelQueue delivery value).pending =
      Fifo.enqueue tunerPendingQueueCap t.pending (value.freq, value.rfChannel) := by
  rw [pending, entries_channelQueue, List.map_append, Fifo.enqueue, length_pending]
  unfold pendingWithRoom
  split
  · rename_i full
    rw [if_neg (Nat.not_lt.mpr full)]
    rfl
  · rename_i room
    rw [if_pos (Nat.lt_of_not_le room)]
    rfl

/-- The worker takes the oldest entry. -/
theorem pending_of_pop {t : Tuner} {entry : Pending} {rest : PendingQueue}
    (popped : t.pendingQueue.pop? = some (entry, rest)) :
    t.pending = entry.request :: rest.entries.map Pending.request := by
  rw [pending, RingQueue.entries_pop popped, List.map_cons]

end Tuner

/-- The action does to the list what its mark says. -/
def QueueStep (w : World) (frame : Frame) (outcome : Outcome) : Prop :=
  Fifo.run tunerPendingQueueCap w.tuner.pending (queueMark w frame).toList =
    some outcome.shared.tuner.pending

section Groups

variable {w : World} {χ : Choice} {outcome : Outcome}

theorem QueueStep.kept {frame : Frame} (unmarked : queueMark w frame = none)
    (same : outcome.shared.tuner.pendingQueue = w.tuner.pendingQueue) :
    QueueStep w frame outcome := by
  rw [QueueStep, unmarked, Tuner.pending, Tuner.pending, same]
  rfl

theorem Apart.queueStep {frame : Frame} (apart : Apart w outcome)
    (unmarked : queueMark w frame = none) : QueueStep w frame outcome :=
  .kept unmarked (congrArg ScanSession.pendingQueue apart.1)

theorem setAct_queueStep {frame : SetFrame} (acted : setAct w χ frame = some outcome) :
    QueueStep w (.set frame) outcome := by
  revert acted
  fun_cases setAct w χ frame <;> intro acted <;> cases acted
  case case1.refl => exact .kept rfl (by simp)
  case case31.refl request accepts =>
      rw [QueueStep, queueMark, if_pos accepts, Option.toList_some, Fifo.run_singleton]
      exact congrArg some (w.tuner.pending_channelQueue request.delivery request.value).symm
  case case32.refl rejects => exact .kept (if_neg rejects) rfl
  all_goals exact .kept rfl rfl

theorem scanAct_queueStep {frame : ScanFrame} (acted : scanAct w χ frame = some outcome) :
    QueueStep w (.scan frame) outcome := by
  revert acted
  fun_cases scanAct w χ frame <;> intro acted <;> cases acted
  case case15.refl | case16.refl => exact .kept rfl (by simp)
  case case18.refl entry rest popped =>
      rw [QueueStep, queueMark, popped, Option.map_some, Option.toList_some, Fifo.run_singleton,
        Tuner.pending_of_pop popped]
      exact if_pos rfl
  case case19.refl empty _ => exact .kept (by rw [queueMark, empty]; rfl) rfl
  all_goals exact .kept rfl rfl

/-- The step lemma of the queue. -/
theorem act_queueStep {frame : Frame} (acted : act w frame χ = some outcome) :
    QueueStep w frame outcome := by
  cases frame with
  | hold frame => exact (holdAct_apart acted).queueStep rfl
  | release frame => exact (releaseAct_apart acted).queueStep rfl
  | claim frame => exact (claimAct_apart acted).queueStep rfl
  | stream frame => exact (streamAct_apart acted).queueStep rfl
  | push frame => exact (pushAct_apart acted).queueStep rfl
  | pull frame => exact (pullAct_apart acted).queueStep rfl
  | set frame => exact setAct_queueStep acted
  | scan frame => exact scanAct_queueStep acted
  | stats frame => exact (statsAct_apart acted).queueStep rfl

end Groups

/-- A worker that finds entries goes on with the oldest one. -/
def TakesOldest (config : Interleaving.Config World Frame) : Prop :=
  ∀ thread job rest χ next,
    config.threads[thread]? = some (.scan (.scanDequeue job) :: rest) →
    config.shared.tuner.pending ≠ [] → machine.step .all config (.act thread χ) = some next →
    ∃ taken : ScanJob, next.threads[thread]? = some (.scan (.scanTune taken) :: rest) ∧
      config.shared.tuner.pending = (taken.freq, taken.rfChannel) :: next.shared.tuner.pending

theorem takesOldest (config : Interleaving.Config World Frame) : TakesOldest config := by
  intro thread job rest χ next found some_ stepTo
  obtain ⟨frame, rest', outcome, top, -, acted, rfl⟩ := Machine.step_act_threads stepTo
  cases found.symm.trans top
  cases popped : config.shared.tuner.pendingQueue.pop? with
  | none =>
      have empty := RingQueue.pop?_eq_none_iff.mp popped
      rw [← Tuner.length_pending] at empty
      exact absurd (List.eq_nil_of_length_eq_zero empty) some_
  | some pair =>
      obtain ⟨entry, others⟩ := pair
      change scanAct config.shared χ (.scanDequeue job) = some outcome at acted
      rw [scanAct, popped] at acted
      cases acted
      refine ⟨{ job with
        freq := entry.freq
        rfChannel := entry.rfChannel
        accepted := some entry.accepted }, ?_, Tuner.pending_of_pop popped⟩
      exact stack_of_acting found

/-- The circular array is a list of at most 40 requests, of which the accesses
so far make what it is. -/
structure PendingFifo (config : Interleaving.Config World Frame)
    (ops : List (Fifo.Op (UInt32 × Int))) : Prop where
  head : config.shared.tuner.pendingQueue.head < tunerPendingQueueCap
  count : config.shared.tuner.pendingQueue.count = config.shared.tuner.pending.length
  fifo : Fifo.run tunerPendingQueueCap [] ops = some config.shared.tuner.pending
  short : config.shared.tuner.pending.length ≤ tunerPendingQueueCap
  conserved : Fifo.enqueued ops =
    (Fifo.departures tunerPendingQueueCap [] ops).map Prod.snd ++ config.shared.tuner.pending
  taken : ((Fifo.departures tunerPendingQueueCap [] ops).filter
    fun departure => departure.1 = .taken).map Prod.snd = Fifo.dequeued ops
  oldest : TakesOldest config

section Run

variable {db : ChannelDb} {config : Interleaving.Config World Frame} {events : Schedule}

/-- The run lemma. -/
theorem run_queueMarks (ran : machine.run .all (start db) events = some config) :
    Fifo.run tunerPendingQueueCap []
      ((machine.trail .all queueMark (start db) events).map Prod.snd) =
        some config.shared.tuner.pending := by
  apply Machine.trail_invariant (fun config past =>
    Fifo.run tunerPendingQueueCap [] (past.map Prod.snd) = some config.shared.tuner.pending) ran rfl
  · exact fun _ _ _ before _ => before
  · intro config thread frame rest χ outcome past before found acted
    have marks : ((queueMark config.shared frame).map (Prod.mk thread)).toList.map Prod.snd =
        (queueMark config.shared frame).toList := by
      cases queueMark config.shared frame <;> rfl
    rw [List.map_append, marks, Fifo.run_append, before, Option.bind_some]
    exact act_queueStep acted

/-- In every run the circular queue behaves like a list. -/
theorem pending_queue_fifo (ran : machine.run .all (start db) events = some config) :
    PendingFifo config ((machine.trail .all queueMark (start db) events).map Prod.snd) where
  head := config.shared.tuner.pendingQueue.head_lt
  count := config.shared.tuner.length_pending.symm
  fifo := run_queueMarks ran
  short := Fifo.length_le_of_run (by decide) (Nat.zero_le _) (run_queueMarks ran)
  conserved := Fifo.run_conserves (run_queueMarks ran)
  taken := Fifo.taken_departures [] _
  oldest := takesOldest config

end Run

/-- Two scans one after the other, as in `queuedScan`. -/
theorem pending_queue_fifo_queuedScan :
    ∃ config, machine.run .all (start oneStation) queuedScan = some config ∧
      PendingFifo config
        ((machine.trail .all queueMark (start oneStation) queuedScan).map Prod.snd) := by
  obtain ⟨config, ran⟩ := Option.isSome_iff_exists.mp
    (by decide +kernel : (machine.run .all (start oneStation) queuedScan).isSome = true)
  exact ⟨config, ran, pending_queue_fifo ran⟩

end HdhrEmu
