import HdhrEmu.Lib.Tracking
import HdhrEmu.PendingQueue
import HdhrEmu.SetAnswers

/-!
# From a `channel` SET to the tune of its request

The thread of a SET hands its request to a scan worker of its own, or to the
queue of a worker that is running, which takes it out later, or never.  The
request is followed on this way.  The frequency that was asked for arrives
with it; the delivery system is the one that the worker was started with.
-/

namespace HdhrEmu

open CString Interleaving

/-- Where the request of a `channel` SET is. -/
inductive Whereabouts
  /-- With the thread that handles the SET. -/
  | caller (thread : Nat)
  /-- In `pending_queue`, behind `ahead` others. -/
  | queue (ahead : Nat)
  /-- With the worker that was started for it. -/
  | started (worker : Nat)
  /-- With a worker that took it from the queue. -/
  | taken (worker : Nat)
  /-- It was refused or dropped, or its tune has been made. -/
  | gone
  deriving DecidableEq

/-- The thread of the SET hands the request on. -/
def handedOn (config : Config World Frame) (frame : Frame) (χ : Choice) (own : Nat) :
    Whereabouts :=
  match frame with
  | .set (.channelClaim _) | .set (.channelSelect _ _) => .caller own
  | .set (.channelQueue _) =>
      if config.shared.tuner.activeStream = none ∧
          config.shared.tuner.scanWorkerActive = true then
        .queue config.shared.tuner.pendingWithRoom.count
      else .gone
  | .set (.channelSpawn _) => if χ.ok then .started config.threads.length else .gone
  | _ => .gone

/-- An access to the queue moves the requests in it. -/
def movedUp (config : Config World Frame) (thread : Nat) (frame : Frame) (ahead : Nat) :
    Whereabouts :=
  match queueMark config.shared frame with
  | some op =>
      match Fifo.pass tunerPendingQueueCap config.shared.tuner.pending ahead op with
      | .waits later => .queue later
      | .leaves .taken => .taken thread
      | .leaves .dropped => .gone
  | none => .queue ahead

/-- A worker keeps a request up to its tune. -/
def untilTune (frame : Frame) (place : Whereabouts) : Whereabouts :=
  match frame with
  | .scan (.scanTune _) => .gone
  | _ => place

def whereabouts : Tracking World Frame Choice Whereabouts := fun config thread frame χ place =>
  match place with
  | .caller own => if thread = own then handedOn config frame χ own else .caller own
  | .queue ahead => movedUp config thread frame ahead
  | .started worker =>
      if thread = worker then untilTune frame (.started worker) else .started worker
  | .taken worker => if thread = worker then untilTune frame (.taken worker) else .taken worker
  | .gone => .gone

/-- The request that a SET in progress is about. -/
def Frame.request : Frame → Option ChannelRequest
  | .set (.channelClaim request) | .set (.channelQueue request)
  | .set (.channelSelect request _) => some request
  | .set (.channelSpawn ctx) => some ⟨⟨ctx.freq, ctx.rfChannel⟩, ctx.delivery⟩
  | _ => none

/-- What a worker tunes to before it looks at the queue. -/
def Frame.firstTune : Frame → Option Tuning
  | .scan (.scanThread ctx) | .scan (.scanCloseStale ctx _) | .scan (.scanOpen ctx) =>
      some (ctx.attempt ctx.freq)
  | .scan (.scanTune job) => some (job.ctx.attempt job.freq)
  | _ => none

def Frame.ofHold : Frame → Bool
  | .hold _ => true
  | _ => false

/-- The request is where it is said to be. -/
def Carries (request : ChannelRequest) (config : Config World Frame) : Whereabouts → Prop
  | .caller thread => ∃ frame rest,
      config.threads[thread]? = some (frame :: rest) ∧ frame.request = some request
  | .queue ahead =>
      config.shared.tuner.pending[ahead]? = some (request.value.freq, request.value.rfChannel)
  | .started worker => ∃ front frame rest,
      config.threads[worker]? = some (front ++ frame :: rest) ∧ front.all Frame.ofHold = true ∧
        frame.firstTune = some ⟨request.value.freq, request.delivery⟩
  | .taken worker => ∃ job rest,
      config.threads[worker]? = some (.scan (.scanTune job) :: rest) ∧
        job.freq = request.value.freq
  | .gone => True

theorem holdAct_ofHold {w : World} {χ : Choice} {frame : HoldFrame} {outcome : Outcome}
    (acted : holdAct w χ frame = some outcome) : outcome.frames.all Frame.ofHold = true := by
  revert acted
  fun_cases holdAct w χ frame <;> intro acted <;> cases acted <;> simp [Frame.ofHold]

theorem act_dequeue {w : World} {χ : Choice} {frame : Frame} {outcome : Outcome}
    {value : UInt32 × Int} (mark : queueMark w frame = some (.dequeue value))
    (acted : act w frame χ = some outcome) :
    ∃ job : ScanJob, outcome.frames = [.scan (.scanTune job)] ∧
      (job.freq, job.rfChannel) = value := by
  revert mark
  fun_cases queueMark w frame <;> intro mark
  · cases mark
  · cases mark
  · rename_i job
    obtain ⟨popped, took, same⟩ := Option.map_eq_some_iff.mp mark
    change scanAct w χ (.scanDequeue job) = some outcome at acted
    rw [scanAct, took] at acted
    cases acted
    cases same
    exact ⟨_, rfl, rfl⟩
  · cases mark

theorem act_firstTune {w : World} {χ : Choice} {frame : Frame} {outcome : Outcome}
    {tuning : Tuning} (tunes : frame.firstTune = some tuning)
    (acted : act w frame χ = some outcome) :
    (∃ job, frame = .scan (.scanTune job)) ∨
      ∃ front next, outcome.frames = front ++ [next] ∧ front.all Frame.ofHold = true ∧
        next.firstTune = some tuning ∧ ∀ place, untilTune frame place = place := by
  revert tunes
  fun_cases Frame.firstTune frame <;> intro tunes
  case case1 ctx =>
      right
      change scanAct w χ (.scanThread ctx) = some outcome at acted
      rw [scanAct] at acted
      split at acted <;> cases acted
      · exact ⟨[.hold .stopHeldStats], _, rfl, rfl, tunes, fun _ => rfl⟩
      · exact ⟨[], _, rfl, rfl, tunes, fun _ => rfl⟩
  case case2 ctx stale =>
      right
      change scanAct w χ (.scanCloseStale ctx stale) = some outcome at acted
      cases acted
      exact ⟨[], _, rfl, rfl, tunes, fun _ => rfl⟩
  case case3 ctx =>
      right
      change scanAct w χ (.scanOpen ctx) = some outcome at acted
      rw [scanAct] at acted
      split at acted <;> cases acted
      · exact ⟨[], _, rfl, rfl, tunes, fun _ => rfl⟩
      · exact ⟨[], _, rfl, rfl, tunes, fun _ => rfl⟩
  case case4 job => exact Or.inl ⟨job, rfl⟩
  case case5 => cases tunes

namespace Carries

variable {request : ChannelRequest} {config : Config World Frame} {place : Whereabouts}
  {thread : Nat} {frame : Frame} {rest : List Frame} {χ : Choice} {outcome : Outcome}

theorem arrive (carries : Carries request config place) (frame : Frame) :
    Carries request ⟨config.shared, config.threads ++ [[frame]]⟩ place := by
  have kept (thread : Nat) (stack : List Frame) (found : config.threads[thread]? = some stack) :
      (config.threads ++ [[frame]])[thread]? = some stack := by
    rw [List.getElem?_append_left (List.getElem?_eq_some_iff.mp found).1, found]
  cases place with
  | caller thread =>
      obtain ⟨top, rest, found, asks⟩ := carries
      exact ⟨top, rest, kept _ _ found, asks⟩
  | queue ahead => exact carries
  | started worker =>
      obtain ⟨front, top, rest, found, holds, tunes⟩ := carries
      exact ⟨front, top, rest, kept _ _ found, holds, tunes⟩
  | taken worker =>
      obtain ⟨job, rest, found, same⟩ := carries
      exact ⟨job, rest, kept _ _ found, same⟩
  | gone => trivial

/-- The thread of the SET acts. -/
theorem handOn (found : config.threads[thread]? = some (frame :: rest))
    (asks : frame.request = some request) (acted : act config.shared frame χ = some outcome) :
    Carries request
      ⟨outcome.shared, config.threads.set thread (outcome.frames ++ rest) ++ outcome.spawned⟩
      (handedOn config frame χ thread) := by
  revert asks
  fun_cases Frame.request frame <;> intro asks <;> cases asks
  case case1 =>
      change setAct config.shared χ (.channelClaim request) = some outcome at acted
      rw [setAct] at acted
      split at acted <;> cases acted
      · exact ⟨_, rest, stack_of_acting found, rfl⟩
      · exact ⟨_, rest, stack_of_acting found, rfl⟩
  case case2 =>
      change setAct config.shared χ (.channelQueue request) = some outcome at acted
      rw [setAct] at acted
      rw [handedOn]
      split at acted <;> cases acted
      · rename_i accepts
        rw [if_pos accepts]
        rw [Carries, Tuner.pending]
        simp only [Tuner.entries_channelQueue, List.map_append]
        rw [List.getElem?_append_right (by simp)]
        simp [Tuner.pendingEntry, Pending.request]
      · rename_i refuses
        rw [if_neg refuses]
        trivial
  case case3 stale =>
      change setAct config.shared χ (.channelSelect request stale) = some outcome at acted
      cases acted
      exact ⟨_, rest, stack_of_acting found, rfl⟩
  case case4 ctx =>
      change setAct config.shared χ (.channelSpawn ctx) = some outcome at acted
      rw [setAct] at acted
      rw [handedOn]
      split at acted
      · rename_i succeeds
        cases acted
        rw [if_pos succeeds]
        refine ⟨[], .scan (.scanThread ctx), [], ?_, rfl, rfl⟩
        simp
      · rename_i fails
        rw [if_neg fails]
        trivial

/-- A thread accesses the queue, or does something else. -/
theorem moveUp (found : config.threads[thread]? = some (frame :: rest)) {ahead : Nat}
    (there : config.shared.tuner.pending[ahead]? =
      some (request.value.freq, request.value.rfChannel))
    (acted : act config.shared frame χ = some outcome) :
    Carries request
      ⟨outcome.shared, config.threads.set thread (outcome.frames ++ rest) ++ outcome.spawned⟩
      (movedUp config thread frame ahead) := by
  have queued : QueueStep config.shared frame outcome := act_queueStep acted
  rw [QueueStep] at queued
  unfold movedUp
  split
  · rename_i op mark
    rw [mark, Option.toList_some, Fifo.run_singleton] at queued
    split
    · rename_i later waits
      exact Fifo.step_waits there queued waits
    · rename_i taken
      rw [Fifo.step_taken there queued taken] at mark
      obtain ⟨job, frames, same⟩ := act_dequeue mark acted
      rw [frames]
      exact ⟨job, rest, stack_of_acting found, congrArg Prod.fst same⟩
    · trivial
  · rename_i unmarked
    rw [unmarked] at queued
    change outcome.shared.tuner.pending[ahead]? = _
    rw [← Option.some.inj queued, there]

/-- A worker that was started for the request acts. -/
theorem start {front below : List Frame} {next : Frame}
    (found : config.threads[thread]? = some (frame :: rest))
    (stack : frame :: rest = front ++ next :: below) (holds : front.all Frame.ofHold = true)
    (tunes : next.firstTune = some ⟨request.value.freq, request.delivery⟩)
    (acted : act config.shared frame χ = some outcome) :
    Carries request
      ⟨outcome.shared, config.threads.set thread (outcome.frames ++ rest) ++ outcome.spawned⟩
      (untilTune frame (.started thread)) := by
  cases front with
  | nil =>
      cases stack
      rcases act_firstTune tunes acted with
        ⟨job, rfl⟩ | ⟨left, last, frames, holds, tunes, keeps⟩
      · trivial
      · rw [keeps]
        refine ⟨left, last, rest, ?_, holds, tunes⟩
        rw [stack_of_acting found, frames, List.append_assoc, List.singleton_append]
  | cons top front =>
      cases stack
      rw [List.all_cons, Bool.and_eq_true] at holds
      cases frame with
      | hold frame =>
          refine ⟨outcome.frames ++ front, next, below, ?_, ?_, tunes⟩
          · rw [stack_of_acting found, List.append_assoc]
            rfl
          · rw [List.all_append, holdAct_ofHold acted, holds.2]
            rfl
      | _ => cases holds.1

/-- The step lemma. -/
theorem act (carries : Carries request config place)
    (found : config.threads[thread]? = some (frame :: rest))
    (acted : act config.shared frame χ = some outcome) :
    Carries request
      ⟨outcome.shared, config.threads.set thread (outcome.frames ++ rest) ++ outcome.spawned⟩
      (whereabouts config thread frame χ place) := by
  cases place with
  | caller own =>
      obtain ⟨top, below, there, asks⟩ := carries
      by_cases same : thread = own
      · subst same
        cases found.symm.trans there
        rw [whereabouts, if_pos rfl]
        exact handOn found asks acted
      · rw [whereabouts, if_neg same]
        exact ⟨top, below, stack_of_other same there, asks⟩
  | queue ahead => exact moveUp found carries acted
  | started worker =>
      obtain ⟨front, next, below, there, holds, tunes⟩ := carries
      by_cases same : thread = worker
      · subst same
        rw [whereabouts, if_pos rfl]
        exact start found (Option.some.inj (found.symm.trans there)) holds tunes acted
      · rw [whereabouts, if_neg same]
        exact ⟨front, next, below, stack_of_other same there, holds, tunes⟩
  | taken worker =>
      obtain ⟨job, below, there, freq⟩ := carries
      by_cases same : thread = worker
      · subst same
        cases found.symm.trans there
        rw [whereabouts, if_pos rfl]
        trivial
      · rw [whereabouts, if_neg same]
        exact ⟨job, below, stack_of_other same there, freq⟩
  | gone => trivial

/-- The run lemma. -/
theorem run {start : Config World Frame} {events : Schedule}
    (carries : Carries request start place)
    (ran : machine.run .all start events = some config) :
    Carries request config (machine.track .all whereabouts start events place) := by
  apply Machine.track_invariant (Carries request) ran carries
  · intro config frame place carries _
    exact carries.arrive frame
  · intro config thread frame rest choice outcome place carries found acted
    exact carries.act found acted

/-- The worker that was started for a request tunes to what was requested. -/
theorem started_attempt {worker : Nat} {job : ScanJob} {below : List Frame}
    (carries : Carries request config (.started worker))
    (found : config.threads[worker]? = some (.scan (.scanTune job) :: below)) :
    job.ctx.attempt job.freq = ⟨request.value.freq, request.delivery⟩ := by
  obtain ⟨front, next, rest, there, holds, tunes⟩ := carries
  have stack := Option.some.inj (found.symm.trans there)
  cases front with
  | nil =>
      cases stack
      exact Option.some.inj tunes
  | cons top front =>
      cases stack
      cases holds

/-- The worker that took a request from the queue tunes to its frequency. -/
theorem taken_freq {worker : Nat} {job : ScanJob} {below : List Frame}
    (carries : Carries request config (.taken worker))
    (found : config.threads[worker]? = some (.scan (.scanTune job) :: below)) :
    job.freq = request.value.freq := by
  obtain ⟨other, rest, there, same⟩ := carries
  cases found.symm.trans there
  exact same

end Carries

/-- A SET of the value `M:N` that is accepted: it is received, it looks up the
channel map and the frequency, and at last it selects the channel. -/
structure NamedSet extends AcceptedSet where
  mapName : CStr
  number : Nat
  supported : mapName ∈ supportedMaps
  covered : resolveChannelInMap mapName number ≠ 0
  received : Config World Frame
  parsed : Config World Frame
  receipt : Choice
  earlier : Schedule
  atReceipt : received.threads[thread]? =
    some (.set (.channelSet (mapName ++ ':' :: decimal number)) :: rest)
  parses : machine.step .all received (.act thread receipt) = some parsed
  reaches : machine.run .all parsed earlier = some before
  inCall : machine.track .all whereabouts parsed earlier (.caller thread) = .caller thread

namespace NamedSet

/-- What the value names. -/
def named (set : NamedSet) : Tuning :=
  namedTuning set.mapName set.number

/-- The channel map that the SET finds. -/
def activeMap (set : NamedSet) : CStr :=
  set.received.shared.tuner.channelmap

/-- The SET selects what the value names. -/
def Selects (set : NamedSet) : Prop :=
  set.after.shared.tuner.Selects set.named

theorem carries_parsed (set : NamedSet) :
    Carries ⟨⟨set.named.freq, set.number⟩, deliveryForMap set.activeMap⟩ set.parsed
      (.caller set.thread) := by
  obtain ⟨frame, rest, outcome, found, -, acted, next⟩ := Machine.step_act_threads set.parses
  cases set.atReceipt.symm.trans found
  change setAct set.received.shared set.receipt (.channelSet _) = some outcome at acted
  have value : set.mapName ++ ':' :: decimal set.number ≠ noneText := by
    intro same
    have colon : ':' ∈ noneText := by
      rw [← same]
      simp
    exact absurd colon (by decide)
  rw [setAct, if_neg value, channelRequest_named _ set.supported set.covered] at acted
  cases acted
  rw [next]
  exact ⟨_, set.rest, stack_of_acting set.atReceipt, rfl⟩

theorem carries_before (set : NamedSet) :
    Carries ⟨⟨set.named.freq, set.number⟩, deliveryForMap set.activeMap⟩ set.before
      (.caller set.thread) := by
  have carries := set.carries_parsed.run set.reaches
  rwa [set.inCall] at carries

/-- What is accepted is the named frequency with the delivery system of the
active map. -/
theorem request_eq (set : NamedSet) :
    set.request = ⟨⟨set.named.freq, set.number⟩, deliveryForMap set.activeMap⟩ := by
  obtain ⟨frame, rest, found, asks⟩ := set.carries_before
  cases set.atAcceptance.symm.trans found
  have accepts := set.accepts
  revert accepts asks
  fun_cases acceptance set.before.shared set.frame <;> simp_all [Frame.request]

/-- A SET always selects the named frequency, with the delivery system of the
active map. -/
theorem selects (set : NamedSet) :
    set.after.shared.tuner.Selects ⟨set.named.freq, deliveryForMap set.activeMap⟩ := by
  have selected := set.selected_after
  rw [AcceptedSet.tuning, set.request_eq] at selected
  exact ⟨congrArg Selected.frequency selected, congrArg Selected.channel selected⟩

theorem selects_iff (set : NamedSet) :
    set.Selects ↔ deliveryForMap set.activeMap = deliveryForMap set.mapName := by
  constructor
  · intro named
    exact congrArg Tuning.delivery (set.selects.unique named)
  · intro same
    have selects := set.selects
    rw [same] at selects
    exact selects

/-- Where the request is after the SET has been accepted, and later. -/
def placeAfter (set : NamedSet) (events : Schedule) : Whereabouts :=
  machine.track .all whereabouts set.after events
    (whereabouts.follow set.before (.caller set.thread) (.act set.thread set.choice))

theorem carries_after (set : NamedSet) {events : Schedule} {config : Config World Frame}
    (ran : machine.run .all set.after events = some config) :
    Carries set.request config (set.placeAfter events) := by
  have carries := set.carries_before
  rw [← set.request_eq] at carries
  obtain ⟨frame, rest, outcome, found, -, acted, next⟩ := Machine.step_act_threads set.accepted
  have accepted := carries.act found acted
  rw [← next] at accepted
  rw [placeAfter, Tracking.follow, found]
  exact accepted.run ran

end NamedSet

/-- A SET of `M:N` whose request is tuned to: a worker has it, and its tune
succeeds. -/
structure TunedSet extends NamedSet where
  later : Schedule
  reached : Config World Frame
  tuned : Config World Frame
  worker : Nat
  job : ScanJob
  fd : Fd
  below : List Frame
  tune : Choice
  runs : machine.run .all after later = some reached
  served : toNamedSet.placeAfter later = .started worker ∨
    toNamedSet.placeAfter later = .taken worker
  atTune : reached.threads[worker]? = some (.scan (.scanTune job) :: below)
  frontend : job.ffd = some fd
  opened : reached.shared.node.opener = some fd
  succeeds : tune.ok = true
  tunes : machine.step .all reached (.act worker tune) = some tuned

namespace TunedSet

/-- The request went through the queue. -/
def Queued (set : TunedSet) : Prop :=
  set.placeAfter set.later = .taken set.worker

/-- The frontend is tuned to what the value names. -/
def Tunes (set : TunedSet) : Prop :=
  set.tuned.shared.node.tuning = some set.named

/-- The active map has the delivery system of the named one, and so has the
worker that took the request from the queue. -/
def NamedDelivery (set : TunedSet) : Prop :=
  deliveryForMap set.activeMap = deliveryForMap set.mapName ∧
    (set.Queued → set.job.ctx.delivery = deliveryForMap set.mapName)

instance (set : TunedSet) : Decidable set.Queued :=
  inferInstanceAs (Decidable (_ = _))

theorem carries_reached (set : TunedSet) :
    Carries set.request set.reached (set.placeAfter set.later) :=
  set.carries_after set.runs

theorem freq_eq (set : TunedSet) : set.job.freq = set.named.freq := by
  have requested : set.request.value.freq = set.named.freq := by rw [set.request_eq]
  have carries := set.carries_reached
  rw [← requested]
  rcases set.served with started | taken
  · rw [started] at carries
    exact congrArg Tuning.freq (carries.started_attempt set.atTune)
  · rw [taken] at carries
    exact carries.taken_freq set.atTune

/-- The worker that was started for the SET has the delivery system of the map
that was active. -/
theorem delivery_eq (set : TunedSet) (fresh : ¬ set.Queued) :
    set.job.ctx.delivery = deliveryForMap set.activeMap := by
  have requested : set.request.delivery = deliveryForMap set.activeMap := by rw [set.request_eq]
  have carries := set.carries_reached
  rw [set.served.resolve_right fresh] at carries
  rw [← requested]
  exact congrArg Tuning.delivery (carries.started_attempt set.atTune)

/-- The tune is to the named frequency, with the delivery system of the worker. -/
theorem tuning_eq (set : TunedSet) :
    set.tuned.shared.node.tuning = some ⟨set.named.freq, set.job.ctx.delivery⟩ := by
  obtain ⟨frame, rest, outcome, found, -, acted, next⟩ := Machine.step_act_threads set.tunes
  cases set.atTune.symm.trans found
  change scanAct set.reached.shared set.tune (.scanTune set.job) = some outcome at acted
  simp only [scanAct, set.frontend, set.succeeds] at acted
  cases acted
  simp only [next, Node.tune, set.opened, if_true, ChannelScanCtx.attempt, set.freq_eq]

theorem tunes_iff (set : TunedSet) :
    set.Tunes ↔ set.job.ctx.delivery = deliveryForMap set.mapName := by
  rw [Tunes, set.tuning_eq, Option.some_inj]
  constructor
  · exact congrArg Tuning.delivery
  · intro same
    rw [same]
    rfl

end TunedSet

/-- An accepted SET of `M:N` selects what `M:N` names exactly if the active map
has the delivery system of `M`; and when its request is tuned to, the frontend is
tuned to it as well exactly if so has the worker that took the request from the
queue, if one did. -/
theorem named_channel_set_iff (set : NamedSet) :
    (set.Selects ↔ deliveryForMap set.activeMap = deliveryForMap set.mapName) ∧
      ∀ tuned : TunedSet, tuned.toNamedSet = set →
        (set.Selects ∧ tuned.Tunes ↔ tuned.NamedDelivery) := by
  refine ⟨set.selects_iff, ?_⟩
  rintro tuned rfl
  rw [NamedSet.selects_iff, tuned.tunes_iff, TunedSet.NamedDelivery]
  by_cases queued : tuned.Queued
  · simp only [queued, true_implies]
  · simp only [queued, false_implies, and_true, tuned.delivery_eq queued, and_iff_left_iff_imp]
    exact id

/-- Behind a scan of one cable channel another one is requested. -/
def cableRequest : Schedule :=
  .arrive (.set (.channelmapSet "us-cable".toList)) :: steps 0 4 ++
    .arrive (.set (.channelSet "us-cable:22".toList)) :: steps 1 4 ++ steps 2 11 ++
    [.arrive (.set (.channelSet "us-cable:23".toList))]

def queuedCableSet : TunedSet where
  thread := 3
  frame := .set (.channelQueue ⟨⟨219000000, 23⟩, .qam⟩)
  rest := []
  request := ⟨⟨219000000, 23⟩, .qam⟩
  generation := 2
  before := configAfter .empty (cableRequest ++ steps 3 2)
  after := configAfter .empty (cableRequest ++ steps 3 3)
  choice := {}
  atAcceptance := by decide +kernel
  accepts := by decide +kernel
  accepted := by decide +kernel
  mapName := "us-cable".toList
  number := 23
  supported := by decide
  covered := by decide
  received := configAfter .empty cableRequest
  parsed := configAfter .empty (cableRequest ++ steps 3 1)
  receipt := {}
  earlier := steps 3 1
  atReceipt := by decide +kernel
  parses := by decide +kernel
  reaches := by decide +kernel
  inCall := by decide +kernel
  later := steps 2 1
  reached := configAfter .empty (cableRequest ++ steps 3 3 ++ steps 2 1)
  tuned := configAfter .empty (cableRequest ++ steps 3 3 ++ steps 2 2)
  worker := 2
  job := ⟨⟨22, 171000000, .qam, none, 2⟩, some 0, 219000000, 23, some ⟨.qam, 2, 2⟩⟩
  fd := 0
  below := []
  tune := {}
  runs := by decide +kernel
  served := by decide +kernel
  atTune := by decide +kernel
  frontend := rfl
  opened := by decide +kernel
  succeeds := rfl
  tunes := by decide +kernel

theorem named_channel_set_iff_queued :
    queuedCableSet.Queued ∧ queuedCableSet.Selects ∧ queuedCableSet.Tunes :=
  ⟨by decide +kernel, ((named_channel_set_iff queuedCableSet.toNamedSet).2 queuedCableSet rfl).mpr
    ⟨by decide +kernel, fun _ => by decide +kernel⟩⟩

/-- The same channel is requested of a tuner as it starts up, with `us-bcast`
active. -/
def cableOnBroadcast : Schedule :=
  [.arrive (.set (.channelSet "us-cable:23".toList))]

def broadcastSet : TunedSet where
  thread := 0
  frame := .set (.channelSelect ⟨⟨219000000, 23⟩, .atscVsb⟩ none)
  rest := []
  request := ⟨⟨219000000, 23⟩, .atscVsb⟩
  generation := 1
  before := configAfter .empty (cableOnBroadcast ++ steps 0 2)
  after := configAfter .empty (cableOnBroadcast ++ steps 0 3)
  choice := {}
  atAcceptance := by decide +kernel
  accepts := by decide +kernel
  accepted := by decide +kernel
  mapName := "us-cable".toList
  number := 23
  supported := by decide
  covered := by decide
  received := configAfter .empty cableOnBroadcast
  parsed := configAfter .empty (cableOnBroadcast ++ steps 0 1)
  receipt := {}
  earlier := steps 0 1
  atReceipt := by decide +kernel
  parses := by decide +kernel
  reaches := by decide +kernel
  inCall := by decide +kernel
  later := steps 0 1 ++ steps 1 2
  reached := configAfter .empty (cableOnBroadcast ++ steps 0 4 ++ steps 1 2)
  tuned := configAfter .empty (cableOnBroadcast ++ steps 0 4 ++ steps 1 3)
  worker := 1
  job := ⟨⟨23, 219000000, .atscVsb, none, 1⟩, some 0, 219000000, 23, none⟩
  fd := 0
  below := []
  tune := {}
  runs := by decide +kernel
  served := by decide +kernel
  atTune := by decide +kernel
  frontend := rfl
  opened := by decide +kernel
  succeeds := rfl
  tunes := by decide +kernel

/-- It is selected and tuned as 8VSB. -/
theorem named_cable_channel_tuned_as_8vsb :
    machine.Reachable .all (start .empty) broadcastSet.received ∧
      broadcastSet.named = ⟨219000000, .qam⟩ ∧
      broadcastSet.tuned.shared.node.tuning = some ⟨219000000, .atscVsb⟩ ∧
      ¬ broadcastSet.Selects ∧ ¬ broadcastSet.Tunes := by
  refine ⟨⟨cableOnBroadcast, by decide +kernel⟩, by decide +kernel, by decide +kernel, ?_, ?_⟩
  · rintro ⟨-, text⟩
    revert text
    decide +kernel
  · rw [TunedSet.Tunes]
    decide +kernel

end HdhrEmu
