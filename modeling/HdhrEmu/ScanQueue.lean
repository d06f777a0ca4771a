import HdhrEmu.ClaimHolder

/-!
# The queue behind a scan worker

A `channel` SET that finds a scan worker running appends its frequency to
`pending_queue` and leaves the rest to the worker.  The worker looks at the
queue for the last time well before it clears `scan_worker_active`, and it
tunes everything with the delivery system and the generation it was started
with; both matter to the requests that are queued behind it.
-/

namespace HdhrEmu

open Interleaving

/-- The worker of a `channel` SET will look at the queue again: its context. -/
@[simp]
def Frame.worker : Frame → Option ChannelScanCtx
  | .set (.channelSpawn ctx) | .scan (.scanThread ctx) | .scan (.scanCloseStale ctx _)
  | .scan (.scanOpen ctx) => some ctx
  | .scan (.scanTune job) | .scan (.scanWaitLock job _) | .scan (.scanRecord job _)
  | .scan (.scanFinalize job _) | .scan (.scanReadPsip job) | .scan (.scanDequeue job) =>
      some job.ctx
  | _ => none

/-- The worker has seen the queue empty, or was never started, and has not
cleared `scan_worker_active` yet. -/
@[simp]
def Frame.leaving : Frame → Bool
  | .scan (.scanExit _) | .scan .scanWorkerDone | .set .channelUnmark => true
  | _ => false

/-- The attempt at a frequency that is under way. -/
@[simp]
def Frame.attempt : Frame → Option ScanJob
  | .scan (.scanTune job) | .scan (.scanWaitLock job _) | .scan (.scanRecord job _)
  | .scan (.scanFinalize job _) | .scan (.scanReadPsip job) | .scan (.scanDequeue job) => some job
  | _ => none

/-- A `channel` SET is accepted onto the queue. -/
def acceptsRequest (w : World) : Frame → Bool
  | .set (.channelQueue _) => w.tuner.activeStream.isNone && w.tuner.scanWorkerActive
  | _ => false

/-- `pthread_create` fails for the scan worker. -/
def spawnFails (χ : Choice) : Frame → Bool
  | .set (.channelSpawn _) => !χ.ok
  | _ => false

/-- The call is no part of a scan worker or of the SET that starts one. -/
@[simp]
def Frame.apart : Frame → Bool
  | .set (.channelSpawn _) | .set .channelUnmark | .scan (.scanThread _)
  | .scan (.scanCloseStale _ _) | .scan (.scanOpen _) | .scan (.scanTune _)
  | .scan (.scanWaitLock _ _) | .scan (.scanRecord _ _) | .scan (.scanFinalize _ _)
  | .scan (.scanReadPsip _) | .scan (.scanDequeue _) | .scan (.scanExit _)
  | .scan .scanWorkerDone => false
  | _ => true

theorem Frame.worker_of_apart {frame : Frame} (apart : frame.apart = true) :
    frame.worker = none ∧ frame.leaving = false ∧ frame.attempt = none := by
  revert apart
  fun_cases Frame.apart frame <;> simp_all

/-- The action neither touches the session nor is part of a worker. -/
def Apart (w : World) (outcome : Outcome) : Prop :=
  outcome.shared.tuner.toScanSession = w.tuner.toScanSession ∧
    outcome.next.all Frame.apart = true

@[simp]
theorem apart_granted (granted : Granted) : granted.frames.all Frame.apart = true := by
  rcases granted with ⟨_ | _, _⟩ | _ <;> rfl

@[simp]
theorem apart_claimTimedOut (db : ChannelDb) (who : Claimant) :
    (who.claimTimedOut db).all Frame.apart = true := by
  rcases who with ⟨_ | _, _⟩ | _ <;> rfl

@[simp]
theorem apart_openFailed (who : Streamer) : who.openFailed.all Frame.apart = true := by
  cases who <;> rfl

@[simp]
theorem apart_opened (who : Streamer) (stream : DvbStream) :
    (who.opened stream).all Frame.apart = true := by
  cases who <;> rfl

section Groups

variable {w : World} {χ : Choice} {outcome : Outcome}

theorem holdAct_apart {frame : HoldFrame} (acted : holdAct w χ frame = some outcome) :
    Apart w outcome := by
  revert acted
  fun_cases holdAct w χ frame <;> intro acted <;> cases acted <;>
    simp [Apart, Outcome.next, -List.all_eq_true]

theorem releaseAct_apart {frame : ReleaseFrame} (acted : releaseAct w χ frame = some outcome) :
    Apart w outcome := by
  revert acted
  fun_cases releaseAct w χ frame <;> intro acted <;> cases acted <;> simp [Apart, Outcome.next]

theorem claimAct_apart {frame : ClaimFrame} (acted : claimAct w χ frame = some outcome) :
    Apart w outcome := by
  revert acted
  fun_cases claimAct w χ frame <;> intro acted <;> cases acted <;>
    simp [Apart, Outcome.next, -List.all_eq_true]

theorem streamAct_apart {frame : StreamFrame} (acted : streamAct w χ frame = some outcome) :
    Apart w outcome := by
  revert acted
  fun_cases streamAct w χ frame <;> intro acted <;> cases acted <;>
    simp [Apart, Outcome.next, -List.all_eq_true]

theorem pushAct_apart {frame : PushFrame} (acted : pushAct w χ frame = some outcome) :
    Apart w outcome := by
  revert acted
  fun_cases pushAct w χ frame <;> intro acted <;> cases acted <;> simp [Apart, Outcome.next]

theorem pullAct_apart {frame : PullFrame} (acted : pullAct w χ frame = some outcome) :
    Apart w outcome := by
  revert acted
  fun_cases pullAct w χ frame <;> intro acted <;> cases acted <;> simp [Apart, Outcome.next]

theorem statsAct_apart {frame : StatsFrame} (acted : statsAct w χ frame = some outcome) :
    Apart w outcome := by
  revert acted
  fun_cases statsAct w χ frame <;> intro acted <;> cases acted <;> simp [Apart, Outcome.next]

end Groups

theorem arrives_apart : ∀ frame, arrives frame = true → frame.apart = true := by
  simp [forall_arrives]

/-- Nothing is accepted onto the queue while a worker is leaving, and a worker
only fails to start while the queue is empty. -/
def drainedExit : Guard World Frame Choice := fun w frame others χ =>
  (!acceptsRequest w frame || others.all fun other => !other.leaving) &&
    (!spawnFails χ frame || w.tuner.pendingQueue.count == 0)

/-- An action that accepts no request: the queue does not grow, and a worker
only leaves an empty queue. -/
structure Drains (w : World) (frame : Frame) (χ : Choice) (outcome : Outcome) : Prop where
  count : outcome.shared.tuner.pendingQueue.count ≤ w.tuner.pendingQueue.count
  active : outcome.shared.tuner.scanWorkerActive = false →
    w.tuner.scanWorkerActive = false ∨ frame.leaving = true
  leaving : outcome.next.any Frame.leaving = true →
    frame.leaving = true ∨ w.tuner.pendingQueue.count = 0 ∨ spawnFails χ frame = true

section Groups

variable {w : World} {χ : Choice} {outcome : Outcome}

theorem Apart.drains {frame : Frame} (apart : Apart w outcome) : Drains w frame χ outcome := by
  obtain ⟨session, next⟩ := apart
  refine ⟨by rw [session], fun inactive => .inl (session ▸ inactive), fun some_ => ?_⟩
  obtain ⟨other, member, leaving⟩ := List.any_eq_true.mp some_
  rw [(Frame.worker_of_apart (List.all_eq_true.mp next other member)).2.1] at leaving
  cases leaving

theorem setAct_drains {frame : SetFrame} (rejects : acceptsRequest w frame = false)
    (acted : setAct w χ frame = some outcome) : Drains w frame χ outcome := by
  revert acted
  fun_cases setAct w χ frame <;> intro acted <;> cases acted
  all_goals constructor <;> simp_all [Outcome.next, spawnFails, acceptsRequest]

theorem scanAct_drains {frame : ScanFrame} (acted : scanAct w χ frame = some outcome) :
    Drains w frame χ outcome := by
  revert acted
  fun_cases scanAct w χ frame <;> intro acted <;> cases acted
  all_goals constructor <;> simp_all [Outcome.next, spawnFails]
  case case18.refl.count popped =>
      have := RingQueue.count_pop popped
      omega
  case case19.refl.leaving empty _ => exact RingQueue.pop?_eq_none_iff.mp empty

theorem act_drains {frame : Frame} (rejects : acceptsRequest w frame = false)
    (acted : act w frame χ = some outcome) : Drains w frame χ outcome := by
  cases frame with
  | hold frame => exact (holdAct_apart acted).drains
  | release frame => exact (releaseAct_apart acted).drains
  | claim frame => exact (claimAct_apart acted).drains
  | stream frame => exact (streamAct_apart acted).drains
  | push frame => exact (pushAct_apart acted).drains
  | pull frame => exact (pullAct_apart acted).drains
  | set frame => exact setAct_drains rejects acted
  | scan frame => exact scanAct_drains acted
  | stats frame => exact (statsAct_apart acted).drains

/-- What accepting a request does. -/
theorem act_accepts {frame : Frame} (accepts : acceptsRequest w frame = true)
    (acted : act w frame χ = some outcome) :
    w.tuner.scanWorkerActive = true ∧ ∃ request, frame = .set (.channelQueue request) ∧
      outcome = ⟨{ w with tuner := w.tuner.channelQueue request.delivery request.value },
        [.set (.channelWait w.tuner.scanGeneration request.value.freq)], []⟩ := by
  revert accepts
  fun_cases acceptsRequest w frame
  case case1 request =>
      intro accepts
      simp only [Bool.and_eq_true, Option.isNone_iff_eq_none] at accepts
      refine ⟨accepts.2, request, rfl, ?_⟩
      simpa [act, setAct, accepts] using acted.symm
  case case2 => simp

end Groups

section Reachable

variable {db : ChannelDb} {config : Config World Frame}

/-- No request is left behind by a worker that terminates. -/
theorem queue_empty_of_inactive (reachable : machine.Reachable drainedExit (start db) config)
    (inactive : config.shared.tuner.scanWorkerActive = false) :
    config.shared.tuner.pendingQueue.count = 0 := by
  refine (reachable.forall_frames (fun _ _ => True)
    (fun w => w.tuner.scanWorkerActive = false → w.tuner.pendingQueue.count = 0)
    (fun w frame => frame.leaving = true → w.tuner.pendingQueue.count = 0)
    (fun _ _ => trivial) (fun _ => rfl) (fun _ member => absurd member (Multiset.notMem_zero _))
    ?_ ?_).1 inactive
  · intro w frame _ arriving leaving
    rw [(Frame.worker_of_apart (arrives_apart _ arriving)).2.1] at leaving
    cases leaving
  · intro w frame others χ outcome _ drained acting rest allowed acted
    simp only [drainedExit, Bool.and_eq_true, Bool.or_eq_true, Bool.not_eq_true',
      List.all_eq_true, beq_iff_eq] at allowed
    obtain ⟨noneLeaving, spawns⟩ := allowed
    cases accepts : acceptsRequest w frame with
    | true =>
        obtain ⟨active, request, rfl, rfl⟩ := act_accepts accepts acted
        have staying := noneLeaving.resolve_left (by simp [accepts])
        refine ⟨fun stopped => ?_, ?_, fun other member leaving => ?_⟩
        · simp [active] at stopped
        · simp [Outcome.next]
        · rw [staying other member] at leaving
          cases leaving
    | false =>
        have step := act_drains accepts acted
        have kept : w.tuner.pendingQueue.count = 0 → outcome.shared.tuner.pendingQueue.count = 0 :=
          fun empty => Nat.le_zero.mp (empty ▸ step.count)
        refine ⟨fun stopped => kept ?_, fun other member leaving => kept ?_,
          fun other member leaving => kept (rest other member leaving)⟩
        · exact (step.active stopped).elim drained acting
        · rcases step.leaving (List.any_eq_true.mpr ⟨other, member, leaving⟩) with
            left | empty | failed
          · exact acting left
          · exact empty
          · exact spawns.resolve_left (by simp [failed])

end Reachable

/-- Two scans one after the other, the second queued behind the first. -/
def queuedScan : Schedule :=
  .arrive (.set (.channelSet "us-bcast:7".toList)) :: steps 0 4 ++ steps 1 11 ++
    .arrive (.set (.channelSet "us-bcast:8".toList)) :: steps 2 3 ++ steps 1 10 ++
    .act 1 { timedOut := true } :: steps 1 6

/-- A request that is accepted between the worker's last look at the queue and
the end of the worker. -/
def lateRequest : Schedule :=
  .arrive (.set (.channelSet "us-bcast:7".toList)) :: steps 0 4 ++ steps 1 11 ++
    .act 1 { timedOut := true } ::
    .arrive (.set (.channelSet "us-bcast:8".toList)) :: steps 2 3 ++ steps 1 6

theorem queue_empty_of_inactive_queuedScan :
    ∃ config, machine.Reachable drainedExit (start oneStation) config ∧
      config.shared.tuner.scanWorkerActive = false ∧
      config.shared.tuner.pendingQueue.count = 0 := by
  obtain ⟨config, reachable, inactive⟩ := machine.reachable_of_run drainedExit
    (start oneStation) queuedScan (fun config => config.shared.tuner.scanWorkerActive = false)
    (by decide +kernel)
  exact ⟨config, reachable, inactive, queue_empty_of_inactive reachable inactive⟩

theorem late_request_left_behind :
    ∃ config, machine.Reachable Guard.all (start oneStation) config ∧
      config.shared.tuner.scanWorkerActive = false ∧
      config.shared.tuner.pendingQueue.count ≠ 0 :=
  machine.reachable_of_run Guard.all (start oneStation) lateRequest
    (fun config => config.shared.tuner.scanWorkerActive = false ∧
      config.shared.tuner.pendingQueue.count ≠ 0)
    (by decide +kernel)

end HdhrEmu
