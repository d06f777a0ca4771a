import HdhrEmu.ClaimHolder

/-!
# Push threads

A push thread that is told to stop may be blocked for longer than
`udp_push_stop` waits, and the next start clears the flag it has not seen yet.
The claim on the tuner still keeps two pushes from sending at once, but not
the old one from sending after the new one was started.
-/

namespace HdhrEmu

open Interleaving

/-- What a call has to do with the pushes of the tuner. -/
inductive PushRole
  /-- a push thread that may still send -/
  | pushing (ctx : PushCtx)
  /-- a push thread that is about to reset the target -/
  | ending (ctx : PushCtx)
  /-- a push thread that will send nothing any more -/
  | done (ctx : PushCtx)
  /-- a `target` SET that has not started its push yet -/
  | starting (request : TargetRequest)
  /-- a `target` SET that has started the push `id` -/
  | writing (request : TargetRequest) (id : Nat)
  /-- a `target=none` SET -/
  | resetting

def Streamer.role : Streamer → Option PushRole
  | .push ctx => some (.pushing ctx)
  | .pull _ _ => none

def Claimant.role : Claimant → Option PushRole
  | .streamer who _ => who.role
  | .startupScan => none

def Granted.role : Granted → Option PushRole
  | .streamer who _ => who.role
  | .startupScan => none

@[simp]
def ClaimFrame.role : ClaimFrame → Option PushRole
  | .tunerTryClaim _ _ _ => none
  | .tunerTryClaimWait who | .tunerTryClaimWaiting who => who.role
  | .claimClosing _ granted => granted.role

def StreamFrame.who : StreamFrame → Streamer
  | .dvbStreamOpen who _ | .streamTune who _ _ _ | .streamWaitLock who _ _ _
  | .streamReopenClose who _ _ | .streamReopen who _ | .streamRetune who _ _
  | .streamStart who _ => who

@[simp]
def PushFrame.role : PushFrame → PushRole
  | .pushStart ctx | .pushBind ctx _ | .pushSetStream ctx _ | .pushLoop ctx | .pushRead ctx
  | .pushSend ctx => .pushing ctx
  | .pushEnd ctx => .ending ctx
  | .pushDone ctx => .done ctx

@[simp]
def SetFrame.role : SetFrame → Option PushRole
  | .pushStartRead request | .pushStartFind request _ _ | .pushStartLocked request _
  | .pushStartSiblings request _ _ | .pushStartVerify request _ _ _
  | .pushStartCreate request _ _ => some (.starting request)
  | .targetWrite request id => some (.writing request id)
  | .targetNone => some .resetting
  | _ => none

@[simp]
def Frame.role : Frame → Option PushRole
  | .claim frame => frame.role
  | .stream frame => frame.who.role
  | .push frame => some frame.role
  | .set frame => frame.role
  | _ => none

def rolesOf (frames : List Frame) : List PushRole :=
  frames.flatMap fun frame => frame.role.toList

@[simp]
theorem rolesOf_nil : rolesOf [] = [] :=
  rfl

@[simp]
theorem rolesOf_cons (frame : Frame) (frames : List Frame) :
    rolesOf (frame :: frames) = frame.role.toList ++ rolesOf frames :=
  List.flatMap_cons

@[simp]
theorem rolesOf_append (first second : List Frame) :
    rolesOf (first ++ second) = rolesOf first ++ rolesOf second :=
  List.flatMap_append

/-- The roles of the calls that an action leaves or starts. -/
def roles (outcome : Outcome) : List PushRole :=
  rolesOf outcome.next

/-- The push thread of a call that may still send. -/
def Frame.pushing (frame : Frame) : Option PushCtx :=
  match frame.role with
  | some (.pushing ctx) => some ctx
  | _ => none

/-- The opening of the stream fails for good. -/
def StreamFrame.fails (w : World) (χ : Choice) : StreamFrame → Bool
  | .dvbStreamOpen _ none | .streamReopen _ _ => (w.node.open? χ.fd χ.ok).isNone
  | .streamWaitLock _ _ _ retried => retried && !χ.ok
  | .streamTune _ _ _ _ | .streamRetune _ _ _ | .streamStart _ _ => !χ.ok
  | _ => false

/-- A push thread gives up before it has a stream: no socket or a bad address,
no claim in time, or no stream. -/
def failsPush (w : World) (χ : Choice) : Frame → Bool
  | .push (.pushStart ctx) => !(χ.ok && (inetPton ctx.destIp).isSome)
  | .claim (.tunerTryClaimWaiting (.streamer (.push _) _)) => χ.timedOut
  | .stream frame => frame.fails w χ
  | _ => false

/-- Nothing about the pushes changes, a keepalive packet apart. -/
def SamePush (w : World) (outcome : Outcome) : Prop :=
  ∃ time, outcome.shared.tuner.toPush = { w.tuner.toPush with lastKeepaliveTime := time }

/-- What an action does to the pushes. -/
inductive PushStep (w : World) (frame : Frame) (χ : Choice) (outcome : Outcome) : Prop
  | calm (same : SamePush w outcome) (kept : roles outcome = frame.role.toList)
  | requested (request : TargetRequest) (same : SamePush w outcome) (was : frame.role = none)
      (valid : parseUdpTarget request.value = some request.target)
      (now : roles outcome = [.starting request])
  | refused (request : TargetRequest) (same : SamePush w outcome)
      (was : frame.role = some (.starting request)) (now : roles outcome = [])
  | resets (same : SamePush w outcome) (was : frame.role = none)
      (now : roles outcome = [.resetting])
  | stopped (active : w.tuner.udpPushActive = true)
      (stop : outcome.shared.tuner = w.tuner.udpPushStop) (was : frame.role = none)
      (now : roles outcome = [])
  | created (request : TargetRequest) (channel : ChannelRef) (program : Int)
      (was : frame = .set (.pushStartCreate request channel program)) (ok : χ.ok = true)
      (create : outcome.shared.tuner = w.tuner.udpPushCreate request.target χ.now true)
      (now : roles outcome = [.writing request (w.tuner.pushCount + 1),
        .pushing (w.tuner.pushCtx (channel.deref w.db) program request.target)])
  | createFailed (request : TargetRequest) (channel : ChannelRef) (program : Int)
      (was : frame = .set (.pushStartCreate request channel program)) (ok : χ.ok = false)
      (create : outcome.shared.tuner = w.tuner.udpPushCreate request.target χ.now false)
      (now : roles outcome = [])
  | wrote (request : TargetRequest) (id : Nat) (was : frame = .set (.targetWrite request id))
      (write : outcome.shared.tuner = w.tuner.setTarget request.value) (now : roles outcome = [])
  | reset (was : frame = .set .targetNone)
      (write : outcome.shared.tuner = w.tuner.setTarget noneText) (now : roles outcome = [])
  | left (ctx : PushCtx) (same : SamePush w outcome) (was : frame.role = some (.pushing ctx))
      (now : roles outcome = [.ending ctx])
  | failed (ctx : PushCtx) (same : SamePush w outcome) (was : frame.role = some (.pushing ctx))
      (fails : failsPush w χ frame = true) (now : roles outcome = [.done ctx])
  | ended (ctx : PushCtx) (was : frame = .push (.pushEnd ctx))
      (write : outcome.shared.tuner = w.tuner.setTarget noneText)
      (now : roles outcome = [.done ctx])
  | finished (ctx : PushCtx) (was : frame = .push (.pushDone ctx))
      (done : outcome.shared.tuner = w.tuner.udpPushDone ctx.generation)
      (now : roles outcome = [])

@[simp]
theorem rolesOf_stopping (held : Option Fd) (frames : List Frame) :
    rolesOf (stopping held frames) = rolesOf frames := by
  unfold stopping
  split <;> simp

@[simp]
theorem rolesOf_granted (granted : Granted) : rolesOf granted.frames = granted.role.toList := by
  rcases granted with ⟨_ | _, _⟩ | _ <;> rfl

@[simp]
theorem rolesOf_opened (who : Streamer) (stream : DvbStream) :
    rolesOf (who.opened stream) = who.role.toList := by
  cases who <;> rfl

@[simp]
theorem role_granted (who : Claimant) (reused : Option Fd) :
    (who.granted reused).role = who.role := by
  cases who <;> rfl

section Groups

variable {w : World} {χ : Choice} {outcome : Outcome}

theorem holdAct_pushStep {frame : HoldFrame} (acted : holdAct w χ frame = some outcome) :
    PushStep w frame χ outcome := by
  revert acted
  fun_cases holdAct w χ frame <;> intro acted <;> cases acted <;>
    exact .calm ⟨_, rfl⟩ (by simp [roles, Outcome.next])

theorem releaseAct_pushStep {frame : ReleaseFrame} (acted : releaseAct w χ frame = some outcome) :
    PushStep w frame χ outcome := by
  revert acted
  fun_cases releaseAct w χ frame <;> intro acted <;> cases acted <;>
    refine .calm ⟨w.tuner.lastKeepaliveTime, ?_⟩ ?_ <;> simp [roles, Outcome.next]

theorem claimAct_pushStep {frame : ClaimFrame} (acted : claimAct w χ frame = some outcome) :
    PushStep w frame χ outcome := by
  revert acted
  fun_cases claimAct w χ frame <;> intro acted
  case case6 who _ timedOut =>
      cases acted
      rcases who with ⟨ctx | _, want⟩ | _
      · exact .failed ctx ⟨_, rfl⟩ rfl timedOut rfl
      · exact .calm ⟨_, rfl⟩ rfl
      · exact .calm ⟨_, rfl⟩ rfl
  all_goals first
    | cases acted; done
    | cases acted
      refine .calm ⟨_, rfl⟩ ?_
      simp [roles, Outcome.next, Claimant.role, Streamer.role]

/-- An opening that has failed for good. -/
theorem pushStep_openFailed {frame : StreamFrame} {frames : List Frame}
    (fails : frame.fails w χ = true) (others : rolesOf frames = []) :
    PushStep w frame χ ⟨w, frames ++ frame.who.openFailed, []⟩ := by
  have now : roles ⟨w, frames ++ frame.who.openFailed, []⟩ = rolesOf frame.who.openFailed := by
    simp [roles, Outcome.next, others]
  cases opener : frame.who with
  | push ctx =>
      rw [opener] at now
      exact .failed ctx ⟨_, rfl⟩ (by simp [opener, Streamer.role]) fails now
  | pull key peer =>
      rw [opener] at now
      exact .calm ⟨_, rfl⟩ (by rw [now]; simp [opener, Streamer.role]; rfl)

theorem streamAct_pushStep {frame : StreamFrame} (acted : streamAct w χ frame = some outcome) :
    PushStep w frame χ outcome := by
  revert acted
  fun_cases streamAct w χ frame <;> intro acted <;> cases acted
  all_goals first
    | refine .calm ⟨_, rfl⟩ ?_
      simp [roles, Outcome.next, StreamFrame.who]
      done
    | refine pushStep_openFailed ?_ rolesOf_nil
      simp_all [StreamFrame.fails]
    | refine pushStep_openFailed ?_ (rolesOf_cons (.hold (.frontendClose _)) [])
      simp_all [StreamFrame.fails]

theorem pushAct_pushStep {frame : PushFrame} (acted : pushAct w χ frame = some outcome) :
    PushStep w frame χ outcome := by
  revert acted
  fun_cases pushAct w χ frame <;> intro acted <;> cases acted
  all_goals first
    | refine .calm ⟨_, rfl⟩ ?_
      simp [roles, Outcome.next, Claimant.role, Streamer.role]
      done
    | exact .left _ ⟨_, rfl⟩ rfl rfl
    | exact .ended _ rfl rfl rfl
    | exact .finished _ rfl rfl rfl
    | refine .failed _ ⟨_, rfl⟩ rfl ?_ rfl
      cases ok : χ.ok <;> simp_all [failsPush]

theorem pullAct_pushStep {frame : PullFrame} (acted : pullAct w χ frame = some outcome) :
    PushStep w frame χ outcome := by
  revert acted
  fun_cases pullAct w χ frame <;> intro acted <;> cases acted <;>
    refine .calm ⟨w.tuner.lastKeepaliveTime, ?_⟩ ?_ <;>
    simp [roles, Outcome.next, Claimant.role, Streamer.role, StreamFrame.who]

theorem setAct_pushStep {frame : SetFrame} (acted : setAct w χ frame = some outcome) :
    PushStep w frame χ outcome := by
  revert acted
  fun_cases setAct w χ frame <;> intro acted <;> cases acted
  all_goals first
    | refine .calm ⟨_, rfl⟩ ?_
      simp [roles, Outcome.next]
      done
    | exact .refused _ ⟨_, rfl⟩ rfl rfl
    | exact .resets ⟨_, rfl⟩ rfl rfl
    | exact .reset rfl rfl rfl
    | exact .wrote _ _ rfl rfl rfl
    | exact .stopped ‹_› rfl rfl rfl
    | exact .requested _ ⟨_, rfl⟩ rfl ‹_› rfl
    | exact .created _ _ _ rfl ‹_› rfl rfl
    | refine .createFailed _ _ _ rfl ?_ rfl rfl
      simp_all

theorem scanAct_pushStep {frame : ScanFrame} (acted : scanAct w χ frame = some outcome) :
    PushStep w frame χ outcome := by
  revert acted
  fun_cases scanAct w χ frame <;> intro acted <;> cases acted <;>
    refine .calm ⟨w.tuner.lastKeepaliveTime, ?_⟩ ?_ <;> simp [roles, Outcome.next]

theorem statsAct_pushStep {frame : StatsFrame} (acted : statsAct w χ frame = some outcome) :
    PushStep w frame χ outcome := by
  revert acted
  fun_cases statsAct w χ frame <;> intro acted <;> cases acted <;>
    exact .calm ⟨_, rfl⟩ (by simp [roles, Outcome.next])

theorem act_pushStep {frame : Frame} (acted : act w frame χ = some outcome) :
    PushStep w frame χ outcome := by
  cases frame with
  | hold frame => exact holdAct_pushStep acted
  | release frame => exact releaseAct_pushStep acted
  | claim frame => exact claimAct_pushStep acted
  | stream frame => exact streamAct_pushStep acted
  | push frame => exact pushAct_pushStep acted
  | pull frame => exact pullAct_pushStep acted
  | set frame => exact setAct_pushStep acted
  | scan frame => exact scanAct_pushStep acted
  | stats frame => exact statsAct_pushStep acted

end Groups

theorem arrives_role : ∀ frame, arrives frame = true → frame.role = none := by
  simp [forall_arrives, Claimant.role]

theorem mem_roles {outcome : Outcome} {next : Frame} {role : PushRole}
    (member : next ∈ outcome.next) (is : next.role = some role) : role ∈ roles outcome :=
  List.mem_flatMap.mpr ⟨next, member, by rw [is]; exact List.mem_singleton_self role⟩

/-- A push thread is about to call `sendto`. -/
def Frame.sends : Frame → Option PushCtx
  | .push (.pushSend ctx) => some ctx
  | _ => none

/-- A push is only started when every push thread that was told to stop has
left its loop. -/
def stoppedPushesGone : Guard World Frame Choice := fun w frame others χ =>
  match frame with
  | .set (.pushStartCreate _ _ _) =>
      !χ.ok || others.all fun other => other.pushing.all fun ctx => w.tuner.stoppedUpTo < ctx.id
  | _ => true

/-- No push that was told to stop sends once a newer one has been started, and
never do two pushes send. -/
structure SendsExclusively (config : Config World Frame) : Prop where
  newer : ∀ frame ∈ config.frames, ∀ ctx ∈ frame.sends,
    config.shared.tuner.supersededUpTo < ctx.id
  alone : tally (fun frame => frame.sends.isSome.toNat) config.frames ≤ 1

theorem sends_le_claims (frame : Frame) : frame.sends.isSome.toNat ≤ frame.claims := by
  fun_cases Frame.sends frame <;> simp

theorem pushing_eq_some_iff {frame : Frame} {ctx : PushCtx} :
    frame.pushing = some ctx ↔ frame.role = some (.pushing ctx) := by
  unfold Frame.pushing
  split <;> simp_all

theorem role_of_sends {frame : Frame} {ctx : PushCtx} (sends : frame.sends = some ctx) :
    frame.role = some (.pushing ctx) := by
  revert sends
  fun_cases Frame.sends frame <;> simp

/-- Only a start changes which pushes are superseded, and only a start brings
a push thread into being. -/
theorem PushStep.numbers {w : World} {frame : Frame} {χ : Choice} {outcome : Outcome}
    (step : PushStep w frame χ outcome) :
    (∃ request channel program, frame = .set (.pushStartCreate request channel program) ∧
      χ.ok = true ∧ outcome.shared.tuner = w.tuner.udpPushCreate request.target χ.now true ∧
      roles outcome = [.writing request (w.tuner.pushCount + 1),
        .pushing (w.tuner.pushCtx (channel.deref w.db) program request.target)]) ∨
    (outcome.shared.tuner.pushCount = w.tuner.pushCount ∧
      outcome.shared.tuner.supersededUpTo = w.tuner.supersededUpTo ∧
      (outcome.shared.tuner.stoppedUpTo = w.tuner.stoppedUpTo ∨
        outcome.shared.tuner.stoppedUpTo = w.tuner.pushCount) ∧
      ∀ ctx, .pushing ctx ∈ roles outcome → frame.role = some (.pushing ctx)) := by
  cases step with
  | created request channel program was ok create now =>
      exact .inl ⟨request, channel, program, was, ok, create, now⟩
  | calm same kept =>
      obtain ⟨time, same⟩ := same
      refine .inr ?_
      simp [same, kept]
  | stopped active stop was now =>
      refine .inr ?_
      simp [stop, Tuner.udpPushStop, active, now]
  | createFailed request channel program was ok create now =>
      refine .inr ?_
      simp [create, Tuner.udpPushCreate, now]
  | finished ctx was done now =>
      refine .inr ?_
      simp only [done, Tuner.udpPushDone, now]
      split <;> simp
  | wrote request id was write now | reset was write now | ended ctx was write now =>
      refine .inr ?_
      simp [write, now]
  | requested request same was valid now | refused request same was now | resets same was now
  | left ctx same was now | failed ctx same was fails now =>
      obtain ⟨time, same⟩ := same
      refine .inr ?_
      simp [same, now]

section Reachable

variable {guard : Guard World Frame Choice} {db : ChannelDb} {config : Config World Frame}

/-- Whoever sends has the claim, in every schedule. -/
theorem one_push_sends (reachable : machine.Reachable guard (start db) config) :
    tally (fun frame => frame.sends.isSome.toNat) config.frames ≤ 1 := by
  have le := tally_mono sends_le_claims config.frames
  rw [← busy_eq_tally_claims reachable] at le
  exact le.trans (Bool.toNat_le _)

theorem pushing_newer (reachable : machine.Reachable stoppedPushesGone (start db) config) :
    config.shared.tuner.stoppedUpTo ≤ config.shared.tuner.pushCount ∧
      ∀ frame ∈ config.frames, ∀ ctx, frame.role = some (.pushing ctx) →
        config.shared.tuner.supersededUpTo < ctx.id := by
  refine reachable.forall_frames (fun _ _ => True)
    (fun w => w.tuner.stoppedUpTo ≤ w.tuner.pushCount)
    (fun w frame => ∀ ctx, frame.role = some (.pushing ctx) → w.tuner.supersededUpTo < ctx.id)
    (fun _ _ => trivial) (Nat.le_refl 0) (fun _ member => absurd member (Multiset.notMem_zero _))
    ?_ ?_
  · intro w frame _ arriving ctx role
    rw [arrives_role _ arriving] at role
    cases role
  · intro w frame others χ outcome _ stopped acting rest allowed acted
    rcases (act_pushStep acted).numbers with
      ⟨request, channel, program, rfl, ok, create, now⟩ | ⟨count, superseded, stop, pushing⟩
    · simp only [stoppedPushesGone, ok, Bool.not_true, Bool.false_or, List.all_eq_true,
        Option.all_eq_true, decide_eq_true_eq] at allowed
      have fields : outcome.shared.tuner.stoppedUpTo = w.tuner.stoppedUpTo ∧
          outcome.shared.tuner.pushCount = w.tuner.pushCount + 1 ∧
          outcome.shared.tuner.supersededUpTo = w.tuner.stoppedUpTo := by
        simp [create, Tuner.udpPushCreate]
      obtain ⟨stopped_, count, superseded⟩ := fields
      refine ⟨by omega, fun next member ctx role => ?_, fun other member ctx role => ?_⟩
      · have among := mem_roles member role
        rw [now] at among
        simp only [List.mem_cons, PushRole.pushing.injEq, List.not_mem_nil, or_false,
          reduceCtorEq, false_or] at among
        rw [superseded, among]
        exact Nat.lt_succ_of_le stopped
      · rw [superseded]
        exact allowed other member ctx (pushing_eq_some_iff.mpr role)
    · refine ⟨by omega, fun next member ctx role => ?_, fun other member ctx role => ?_⟩
      · rw [superseded]
        exact acting ctx (pushing ctx (mem_roles member role))
      · rw [superseded]
        exact rest other member ctx role

/-- As long as pushes are only started after those told to stop have stopped,
no superseded push sends; and at no time do two pushes send. -/
theorem pushes_send_exclusively
    (reachable : machine.Reachable stoppedPushesGone (start db) config) :
    SendsExclusively config where
  newer := fun frame member ctx sends =>
    (pushing_newer reachable).2 frame member ctx (role_of_sends sends)
  alone := one_push_sends reachable

end Reachable

/-- A selected channel is pushed; the push thread has just read something. -/
def runningPush : Schedule :=
  .arrive (.set (.vchannelSet ⟨2, 1⟩)) :: steps 0 9 ++
    .arrive (.set (.targetSet "10.0.0.2:5000".toList)) :: steps 2 6 ++ steps 3 3 ++ steps 1 1 ++
    steps 3 9

/-- A second `target` SET while the push thread is blocked in a read. -/
def blockedPushReplaced : Schedule :=
  runningPush ++ .arrive (.set (.targetSet "10.0.0.3:5000".toList)) :: steps 5 2 ++
    .act 5 { timedOut := true } :: steps 5 4 ++ [.act 3 { more := true }]

theorem pushes_send_exclusively_runningPush :
    ∃ config, machine.Reachable stoppedPushesGone (start oneStation) config ∧
      (∃ frame ∈ config.threads.flatten, frame.sends.isSome = true) ∧
      SendsExclusively config := by
  obtain ⟨config, reachable, sending⟩ := machine.reachable_of_run stoppedPushesGone
    (start oneStation) (runningPush ++ [.act 3 { more := true }])
    (fun config => ∃ frame ∈ config.threads.flatten, frame.sends.isSome = true)
    (by decide +kernel)
  exact ⟨config, reachable, sending, pushes_send_exclusively reachable⟩

theorem superseded_push_sends :
    ∃ config, machine.Reachable Guard.all (start oneStation) config ∧
      ¬ SendsExclusively config := by
  obtain ⟨config, reachable, frame, member, ctx, sends, old⟩ :=
    machine.reachable_of_run Guard.all (start oneStation) blockedPushReplaced
      (fun config => ∃ frame ∈ config.threads.flatten, ∃ ctx ∈ frame.sends,
        ctx.id ≤ config.shared.tuner.supersededUpTo)
      (by decide +kernel)
  exact ⟨config, reachable, fun exclusive =>
    absurd (exclusive.newer frame member ctx sends) (Nat.not_lt.mpr old)⟩

end HdhrEmu
