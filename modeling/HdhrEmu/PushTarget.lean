import HdhrEmu.PushThreads
import Mathlib.Data.Multiset.Bind

/-!
# The target that is reported

`target` and `udp_push_active` are written by the SETs and by the push thread
in critical sections of their own.  They agree when nothing else is under way,
provided that the pushes of a tuner do not overlap, that a SET writes its
target in time, and that no push gives up before it has a stream: that way out
does not reset the target.
-/

namespace HdhrEmu

open Interleaving

/-- The role of a push thread. -/
def PushRole.isThread : PushRole → Bool
  | .pushing _ | .ending _ | .done _ => true
  | _ => false

/-- The push `id` has not reset the target yet. -/
def PushRole.runs (id : Nat) : PushRole → Bool
  | .pushing ctx | .ending ctx => ctx.id == id
  | _ => false

def PushRole.resets : PushRole → Bool
  | .resetting => true
  | _ => false

/-- Pushes do not overlap: one is only started, and `none` only written by a
SET, when no push thread is left; a SET writes its target while its push is
running, in full as far as the destination goes; and a push only gives up
when its target has been or is about to be reset. -/
def orderlyPushes : Guard World Frame Choice := fun w frame others χ =>
  (match frame with
    | .set (.pushStartCreate _ _ _) | .set .targetNone =>
        (rolesOf others).all fun role => !role.isThread
    | .set (.targetWrite request id) =>
        parseUdpTarget (truncate 64 request.value) == parseUdpTarget request.value &&
          (rolesOf others).any (PushRole.runs id)
    | _ => true) &&
  (!failsPush w χ frame || w.tuner.target == noneText ||
    (rolesOf others).any PushRole.resets)

/-- The push of this context is the newest one. -/
structure Newest (p : Push) (ctx : PushCtx) : Prop where
  generation : ctx.generation = p.udpPushGeneration
  id : ctx.id = p.pushCount
  destination : p.destination = some ctx.target

/-- The state of the pushes and the roles of all calls fit together. -/
structure Orderly (p : Push) (roles : Multiset PushRole) : Prop where
  active : roles.countP (fun role => role.isThread = true) = p.udpPushActive.toNat
  newest : ∀ ctx, .pushing ctx ∈ roles ∨ .ending ctx ∈ roles ∨ .done ctx ∈ roles → Newest p ctx
  request : ∀ request, .starting request ∈ roles →
    parseUdpTarget request.value = some request.target
  write : ∀ request id, .writing request id ∈ roles → id ≤ p.pushCount ∧
    (id = p.pushCount → parseUdpTarget request.value = p.destination)
  reset : p.target = noneText ∨ (∃ ctx, .pushing ctx ∈ roles ∨ .ending ctx ∈ roles) ∨
    .resetting ∈ roles
  shown : (∃ ctx, .pushing ctx ∈ roles) →
    (∃ request, .writing request p.pushCount ∈ roles) ∨ parseUdpTarget p.target = p.destination

/-- The roles of all calls. -/
def rolesIn (frames : Multiset Frame) : Multiset PushRole :=
  frames.bind fun frame => (frame.role.toList : Multiset PushRole)

theorem rolesIn_cons (frame : Frame) (frames : Multiset Frame) :
    rolesIn (frame ::ₘ frames) = (frame.role.toList : Multiset PushRole) + rolesIn frames :=
  Multiset.cons_bind _ _ _

theorem rolesIn_add (first second : Multiset Frame) :
    rolesIn (first + second) = rolesIn first + rolesIn second :=
  Multiset.add_bind _ _ _

theorem rolesIn_coe (frames : List Frame) : rolesIn (frames : Multiset Frame) = rolesOf frames := by
  induction frames with
  | nil => rfl
  | cons frame frames ih =>
      rw [← Multiset.cons_coe, rolesIn_cons, ih, rolesOf_cons, Multiset.coe_add]

/-- No push thread is among the calls. -/
def NoThread (roles : Multiset PushRole) : Prop :=
  ∀ role ∈ roles, role.isThread = false

theorem NoThread.elim {roles : Multiset PushRole} (none_left : NoThread roles) {role : PushRole}
    (member : role ∈ roles) (thread : role.isThread = true) : False :=
  Bool.false_ne_true ((none_left role member).symm.trans thread)

theorem noThread_iff_countP {roles : Multiset PushRole} :
    NoThread roles ↔ roles.countP (fun role => role.isThread = true) = 0 := by
  simp [NoThread, Multiset.countP_eq_zero]

section Step

variable {p next : Push} {roles : Multiset PushRole} {ctx : PushCtx} {request : TargetRequest}

theorem Orderly.same (orderly : Orderly p roles) {stop : Bool} {time upTo : Nat}
    (same : next =
      { p with udpPushStopRequested := stop, lastKeepaliveTime := time, stoppedUpTo := upTo }) :
    Orderly next roles := by
  subst same
  obtain ⟨active, newest, request, write, reset, shown⟩ := orderly
  exact ⟨active, fun ctx is => ⟨(newest ctx is).1, (newest ctx is).2, (newest ctx is).3⟩,
    request, write, reset, shown⟩

/-- There is only one push thread. -/
theorem Orderly.alone {role : PushRole} (orderly : Orderly p (role ::ₘ roles))
    (thread : role.isThread = true) : NoThread roles := by
  have count := orderly.active
  rw [Multiset.countP_cons_of_pos (p := fun role : PushRole => role.isThread = true) _ thread]
    at count
  have le := Bool.toNat_le p.udpPushActive
  exact noThread_iff_countP.mpr (by omega)

/-- Without push threads the target has been reset, or is about to be. -/
theorem Orderly.idle (orderly : Orderly p roles)
    (none_left : NoThread roles) :
    p.target = noneText ∨ .resetting ∈ roles := by
  rcases orderly.reset with done | ⟨ctx, pushing | ending⟩ | resets
  · exact .inl done
  · exact (none_left.elim pushing rfl).elim
  · exact (none_left.elim ending rfl).elim
  · exact .inr resets

theorem Orderly.requested (orderly : Orderly p roles)
    (valid : parseUdpTarget request.value = some request.target) :
    Orderly p (.starting request ::ₘ roles) where
  active := by
    rw [Multiset.countP_cons_of_neg _ (by exact Bool.false_ne_true)]
    exact orderly.active
  newest := by simpa using orderly.newest
  request := by simpa [valid] using orderly.request
  write := by simpa using orderly.write
  reset := by simpa using orderly.reset
  shown := by simpa using orderly.shown

theorem Orderly.resets (orderly : Orderly p roles) : Orderly p (.resetting ::ₘ roles) where
  active := by
    rw [Multiset.countP_cons_of_neg _ (by exact Bool.false_ne_true)]
    exact orderly.active
  newest := by simpa using orderly.newest
  request := by simpa using orderly.request
  write := by simpa using orderly.write
  reset := by simp
  shown := by simpa using orderly.shown

theorem Orderly.refused (orderly : Orderly p (.starting request ::ₘ roles)) :
    Orderly p roles where
  active := by
    rw [← orderly.active, Multiset.countP_cons_of_neg _ (by exact Bool.false_ne_true)]
  newest := by simpa using orderly.newest
  request := fun request member => orderly.request request (Multiset.mem_cons_of_mem member)
  write := by simpa using orderly.write
  reset := by simpa using orderly.reset
  shown := by simpa using orderly.shown

theorem Orderly.left (orderly : Orderly p (.pushing ctx ::ₘ roles)) :
    Orderly p (.ending ctx ::ₘ roles) where
  active := by
    rw [← orderly.active, Multiset.countP_cons_of_pos _ (by exact rfl),
      Multiset.countP_cons_of_pos _ (by exact rfl)]
  newest := by
    have newest := orderly.newest
    simp only [Multiset.mem_cons, PushRole.pushing.injEq, PushRole.ending.injEq, reduceCtorEq,
      false_or] at newest ⊢
    exact fun other is => newest other (by tauto)
  request := by simpa using orderly.request
  write := by simpa using orderly.write
  reset := .inr (.inl ⟨ctx, .inr (Multiset.mem_cons_self _ _)⟩)
  shown := by
    rintro ⟨other, is⟩
    have earlier := orderly.shown ⟨other, by simpa using .inr (by simpa using is)⟩
    simpa using earlier

/-- A push thread that sends nothing any more may reset the target, or leave it
to a call that does. -/
theorem Orderly.ends (orderly : Orderly p (.ending ctx ::ₘ roles)) {target : CStr}
    (reset : target = noneText ∨ .resetting ∈ roles) :
    Orderly { p with target := target } (.done ctx ::ₘ roles) where
  active := by
    rw [← orderly.active, Multiset.countP_cons_of_pos _ (by exact rfl),
      Multiset.countP_cons_of_pos _ (by exact rfl)]
  newest := by
    have newest := orderly.newest
    simp only [Multiset.mem_cons, PushRole.ending.injEq, PushRole.done.injEq, reduceCtorEq,
      false_or] at newest ⊢
    intro other is
    obtain ⟨generation, id, destination⟩ := newest other (by tauto)
    exact ⟨generation, id, destination⟩
  request := by simpa using orderly.request
  write := by simpa using orderly.write
  reset := reset.imp_right fun resets => .inr (Multiset.mem_cons_of_mem resets)
  shown := by
    rintro ⟨other, is⟩
    have member : .pushing other ∈ roles := by simpa using is
    exact ((orderly.alone rfl).elim member rfl).elim

/-- The state and the calls once no push thread is left. -/
theorem Orderly.of_idle (none_left : NoThread roles)
    (inactive : p.udpPushActive = false)
    (request : ∀ request, .starting request ∈ roles →
      parseUdpTarget request.value = some request.target)
    (write : ∀ request id, .writing request id ∈ roles → id ≤ p.pushCount ∧
      (id = p.pushCount → parseUdpTarget request.value = p.destination))
    (reset : p.target = noneText ∨ .resetting ∈ roles) : Orderly p roles where
  active := by
    rw [inactive, noThread_iff_countP.mp none_left, Bool.toNat_false]
  newest := by
    rintro other (member | member | member) <;> exact (none_left.elim member rfl).elim
  request := request
  write := write
  reset := reset.imp_right .inr
  shown := fun ⟨_, member⟩ => (none_left.elim member rfl).elim

theorem Orderly.inactive (orderly : Orderly p roles)
    (none_left : NoThread roles) : p.udpPushActive = false := by
  have count := orderly.active
  rw [noThread_iff_countP.mp none_left] at count
  exact Bool.toNat_eq_zero.mp count.symm

end Step

section Sections

variable {t : Tuner} {roles : Multiset PushRole} {request : TargetRequest} {ctx : PushCtx}

theorem Orderly.finished (orderly : Orderly t.toPush (.done ctx ::ₘ roles)) :
    Orderly (t.udpPushDone ctx.generation).toPush roles := by
  have none_left := orderly.alone rfl
  have newest := orderly.newest ctx (by simp)
  have reset : t.target = noneText ∨ .resetting ∈ roles := by
    rcases orderly.reset with done | ⟨other, is⟩ | resets
    · exact .inl done
    · have member : .pushing other ∈ roles ∨ .ending other ∈ roles := by simpa using is
      rcases member with member | member <;> exact (none_left.elim member rfl).elim
    · exact .inr (by simpa using resets)
  rw [Tuner.udpPushDone, if_pos newest.generation.symm]
  exact .of_idle none_left rfl
    (fun request member => orderly.request request (Multiset.mem_cons_of_mem member))
    (fun request id member => orderly.write request id (Multiset.mem_cons_of_mem member)) reset

theorem Orderly.createFailed (orderly : Orderly t.toPush (.starting request ::ₘ roles))
    (none_left : NoThread roles) (now : Nat) :
    Orderly (t.udpPushCreate request.target now false).toPush roles := by
  refine .of_idle none_left rfl orderly.refused.request orderly.refused.write ?_
  exact orderly.refused.idle none_left

theorem Orderly.created (orderly : Orderly t.toPush (.starting request ::ₘ roles))
    (none_left : NoThread roles) (now : Nat) (channel : DvbChannel)
    (program : Int) :
    Orderly (t.udpPushCreate request.target now true).toPush
      (.writing request (t.pushCount + 1) ::ₘ
        .pushing (t.pushCtx channel program request.target) ::ₘ roles) where
  active := by
    rw [Multiset.countP_cons_of_neg _ (by exact Bool.false_ne_true),
      Multiset.countP_cons_of_pos _ (by exact rfl),
      noThread_iff_countP.mp none_left]
    rfl
  newest := by
    simp only [Multiset.mem_cons, PushRole.pushing.injEq, reduceCtorEq, false_or]
    rintro other ((rfl | member) | member | member)
    · exact ⟨rfl, rfl, rfl⟩
    all_goals exact (none_left.elim member rfl).elim
  request := by simpa using orderly.refused.request
  write := by
    have valid := orderly.request request (Multiset.mem_cons_self _ _)
    simp only [Multiset.mem_cons, PushRole.writing.injEq, reduceCtorEq, false_or]
    rintro other id (⟨rfl, rfl⟩ | member)
    · exact ⟨Nat.le_refl _, fun _ => valid⟩
    · have le : id ≤ t.pushCount := (orderly.refused.write other id member).1
      exact ⟨Nat.le_succ_of_le le, fun same => absurd same (Nat.ne_of_lt (Nat.lt_succ_of_le le))⟩
  reset := .inr (.inl ⟨t.pushCtx channel program request.target, .inl (by simp)⟩)
  shown := fun _ => .inl ⟨request, Multiset.mem_cons_self _ _⟩

/-- A SET writes the target of the push that is running. -/
theorem Orderly.wrote {id : Nat} (orderly : Orderly t.toPush (.writing request id ::ₘ roles))
    (complete : parseUdpTarget (truncate 64 request.value) = parseUdpTarget request.value)
    (running : ∃ role ∈ roles, role.runs id = true) :
    Orderly (t.setTarget request.value).toPush roles := by
  obtain ⟨role, member, runs⟩ := running
  have thread : ∃ ctx, (.pushing ctx ∈ roles ∨ .ending ctx ∈ roles) ∧ ctx.id = id := by
    cases role with
    | pushing ctx => exact ⟨ctx, .inl member, by simpa [PushRole.runs] using runs⟩
    | ending ctx => exact ⟨ctx, .inr member, by simpa [PushRole.runs] using runs⟩
    | done _ | starting _ | writing _ _ | resetting => cases runs
  obtain ⟨ctx, is, id_eq⟩ := thread
  have newest := orderly.newest ctx (by simp; tauto)
  have written := (orderly.write request id (Multiset.mem_cons_self _ _)).2
    (id_eq.symm.trans newest.id)
  exact
    { active := by
        rw [Tuner.setTarget, ← orderly.active,
          Multiset.countP_cons_of_neg _ (by exact Bool.false_ne_true)]
      newest := by
        intro other is
        obtain ⟨generation, id, destination⟩ := orderly.newest other (by simpa using is)
        exact ⟨generation, id, destination⟩
      request := fun request member => orderly.request request (Multiset.mem_cons_of_mem member)
      write := fun request id member => orderly.write request id (Multiset.mem_cons_of_mem member)
      reset := .inr (.inl ⟨ctx, is⟩)
      shown := fun _ => .inr (complete.trans written) }

theorem Orderly.written (orderly : Orderly t.toPush (.resetting ::ₘ roles))
    (none_left : NoThread roles) :
    Orderly (t.setTarget noneText).toPush roles := by
  refine .of_idle none_left ?_
    (fun request member => orderly.request request (Multiset.mem_cons_of_mem member))
    (fun request id member => orderly.write request id (Multiset.mem_cons_of_mem member))
    (.inl rfl)
  exact orderly.inactive (Multiset.forall_mem_cons.mpr ⟨rfl, none_left⟩)

end Sections

section Step

variable {w : World} {frame : Frame} {others : List Frame} {χ : Choice} {outcome : Outcome}

theorem noThread_of_allowed
    (allowed : (rolesOf others).all (fun role => !role.isThread) = true) :
    NoThread (rolesOf others) := by
  simpa [NoThread] using allowed

/-- What the guard says about a push that gives up. -/
theorem reset_of_fails (allowed : orderlyPushes w frame others χ = true)
    (fails : failsPush w χ frame = true) :
    w.tuner.target = noneText ∨ .resetting ∈ rolesOf others := by
  unfold orderlyPushes at allowed
  rw [Bool.and_eq_true] at allowed
  have reset := allowed.2
  rw [fails, Bool.not_true, Bool.false_or, Bool.or_eq_true, beq_iff_eq, List.any_eq_true] at reset
  refine reset.imp_right ?_
  rintro ⟨role, member, resets⟩
  cases role with
  | resetting => exact member
  | _ => cases resets

theorem orderly_step
    (orderly : Orderly w.tuner.toPush ((frame.role.toList : Multiset PushRole) + rolesOf others))
    (allowed : orderlyPushes w frame others χ = true) (step : PushStep w frame χ outcome) :
    Orderly outcome.shared.tuner.toPush
      ((roles outcome : Multiset PushRole) + rolesOf others) := by
  cases step with
  | calm same kept =>
      obtain ⟨time, same⟩ := same
      rw [kept]
      exact orderly.same same
  | requested request same was valid now =>
      obtain ⟨time, same⟩ := same
      rw [was] at orderly
      rw [now]
      exact (Orderly.same (by simpa using orderly) same).requested valid
  | refused request same was now =>
      obtain ⟨time, same⟩ := same
      rw [was] at orderly
      rw [now]
      simpa using (Orderly.refused (by simpa using orderly)).same same
  | resets same was now =>
      obtain ⟨time, same⟩ := same
      rw [was] at orderly
      rw [now]
      exact (Orderly.same (by simpa using orderly) same).resets
  | stopped active stop was now =>
      rw [was] at orderly
      rw [now, stop, Tuner.udpPushStop, if_pos active]
      exact orderly.same rfl
  | created request channel program was ok create now =>
      subst was
      rw [now, create]
      simp only [orderlyPushes, Bool.and_eq_true] at allowed
      exact Orderly.created orderly (noThread_of_allowed allowed.1) χ.now (channel.deref w.db)
        program
  | createFailed request channel program was ok create now =>
      subst was
      rw [now, create]
      simp only [orderlyPushes, Bool.and_eq_true] at allowed
      simpa using Orderly.createFailed orderly (noThread_of_allowed allowed.1) χ.now
  | wrote request id was write now =>
      subst was
      rw [now, write]
      simp only [orderlyPushes, Bool.and_eq_true, beq_iff_eq, List.any_eq_true] at allowed
      simpa using Orderly.wrote orderly allowed.1.1 allowed.1.2
  | reset was write now =>
      subst was
      rw [now, write]
      simp only [orderlyPushes, Bool.and_eq_true] at allowed
      simpa using Orderly.written orderly (noThread_of_allowed allowed.1)
  | left ctx same was now =>
      obtain ⟨time, same⟩ := same
      have pushing : Orderly w.tuner.toPush
          (.pushing ctx ::ₘ (rolesOf others : Multiset PushRole)) := by
        rw [was] at orderly
        exact orderly
      rw [now]
      exact (pushing.same same).left
  | failed ctx same was fails now =>
      obtain ⟨time, same⟩ := same
      have pushing : Orderly w.tuner.toPush
          (.pushing ctx ::ₘ (rolesOf others : Multiset PushRole)) := by
        rw [was] at orderly
        exact orderly
      rw [now]
      exact (pushing.left.ends (reset_of_fails allowed fails)).same same
  | ended ctx was write now =>
      subst was
      have ending : Orderly w.tuner.toPush
          (.ending ctx ::ₘ (rolesOf others : Multiset PushRole)) := orderly
      rw [now, write]
      exact ending.ends (.inl rfl)
  | finished ctx was done now =>
      subst was
      rw [now, done]
      simpa using Orderly.finished orderly

end Step

section Reachable

variable {db : ChannelDb} {config : Config World Frame}

theorem orderly_of_reachable (reachable : machine.Reachable orderlyPushes (start db) config) :
    Orderly config.shared.tuner.toPush (rolesIn config.frames) := by
  refine reachable.invariant (fun w frames => Orderly w.tuner.toPush (rolesIn frames)) ?_ ?_ ?_
  · exact .of_idle (fun _ member => absurd member (Multiset.notMem_zero _)) rfl
      (fun _ member => absurd member (Multiset.notMem_zero _))
      (fun _ _ member => absurd member (Multiset.notMem_zero _)) (.inl rfl)
  · intro w frames frame orderly arriving
    rw [rolesIn_cons, arrives_role _ arriving]
    simpa using orderly
  · intro w frame others χ outcome orderly allowed acted
    rw [rolesIn_cons, rolesIn_coe] at orderly
    rw [rolesIn_add, rolesIn_add, ← add_assoc, ← rolesIn_add, Multiset.coe_add, rolesIn_coe,
      rolesIn_coe]
    exact orderly_step orderly allowed (act_pushStep acted)

end Reachable

/-- A call that is no SET, and no push thread on its way in or out. -/
def Frame.settled : Frame → Bool
  | .set _ => false
  | .push (.pushLoop _) | .push (.pushRead _) | .push (.pushSend _) => true
  | frame => frame.role.isNone

/-- No SET and no start or exit of a push thread is in progress. -/
def Quiescent (config : Config World Frame) : Prop :=
  ∀ frame ∈ config.frames, frame.settled = true

instance (config : Config World Frame) : Decidable (Quiescent config) :=
  inferInstanceAs (Decidable (∀ frame ∈ config.frames, _))

/-- A thread that runs a push. -/
def pushes (thread : List Frame) : Bool :=
  thread.any fun frame => frame.role.any PushRole.isThread

/-- `target` and `udp_push_active` say what the push threads do. -/
structure TargetTracksPush (config : Config World Frame) : Prop where
  unclaimed : config.shared.tuner.udpPushActive = false →
    ∀ thread ∈ config.threads, pushes thread = true → ∀ frame ∈ thread, frame.claims = 0
  idle : Quiescent config → config.shared.tuner.udpPushActive = false →
    config.shared.tuner.target = noneText
  running : Quiescent config → config.shared.tuner.udpPushActive = true →
    ∃ frame ∈ config.frames, ∃ ctx, frame.role = some (.pushing ctx) ∧
      parseUdpTarget config.shared.tuner.target = some ctx.target

section Reachable

variable {db : ChannelDb} {config : Config World Frame}

theorem mem_rolesIn {frames : Multiset Frame} {role : PushRole} :
    role ∈ rolesIn frames ↔ ∃ frame ∈ frames, frame.role = some role := by
  simp [rolesIn, Option.mem_toList]

/-- In a quiescent state only running pushes have a role. -/
theorem pushing_of_settled {frame : Frame} {role : PushRole} (settled : frame.settled = true)
    (is : frame.role = some role) : ∃ ctx, role = .pushing ctx := by
  revert settled
  fun_cases Frame.settled frame
  case case1 => intro settled; cases settled
  case case5 =>
      intro settled
      rw [is] at settled
      cases settled
  all_goals
    intro _
    cases is
    exact ⟨_, rfl⟩

theorem pushing_of_quiescent (quiescent : Quiescent config) {role : PushRole}
    (member : role ∈ rolesIn config.frames) : ∃ ctx, role = .pushing ctx := by
  obtain ⟨frame, among, is⟩ := mem_rolesIn.mp member
  exact pushing_of_settled (quiescent frame among) is

/-- As long as pushes do not overlap, SETs write their targets in time and no
push gives up, the target that is reported is right in every quiescent state. -/
theorem target_tracks_push (reachable : machine.Reachable orderlyPushes (start db) config) :
    TargetTracksPush config := by
  have orderly := orderly_of_reachable reachable
  refine ⟨?_, ?_, ?_⟩
  · intro inactive thread member runs
    have count := orderly.active
    rw [inactive, Bool.toNat_false, ← noThread_iff_countP] at count
    obtain ⟨frame, among, isThread⟩ := List.any_eq_true.mp runs
    obtain ⟨role, is, isThread⟩ := (Option.any_eq_true _ _).mp isThread
    have everywhere : role ∈ rolesIn config.frames :=
      mem_rolesIn.mpr ⟨frame, Multiset.mem_coe.mpr (List.mem_flatten_of_mem member among), is⟩
    exact (count.elim everywhere isThread).elim
  · intro quiescent inactive
    have count := orderly.active
    rw [inactive, Bool.toNat_false, ← noThread_iff_countP] at count
    refine (orderly.idle count).resolve_right fun resets => ?_
    obtain ⟨ctx, is⟩ := pushing_of_quiescent quiescent resets
    cases is
  · intro quiescent active
    have count := orderly.active
    rw [active, Bool.toNat_true] at count
    obtain ⟨role, member, isThread⟩ := Multiset.countP_pos.mp (count ▸ Nat.one_pos)
    obtain ⟨ctx, rfl⟩ := pushing_of_quiescent quiescent member
    obtain ⟨frame, among, is⟩ := mem_rolesIn.mp member
    refine ⟨frame, among, ctx, is, ?_⟩
    rcases orderly.shown ⟨ctx, member⟩ with ⟨request, writing⟩ | shown
    · obtain ⟨_, is⟩ := pushing_of_quiescent quiescent writing
      cases is
    · exact shown.trans (orderly.newest ctx (.inl member)).destination

end Reachable

theorem target_tracks_push_runningPush :
    ∃ config, machine.Reachable orderlyPushes (start oneStation) config ∧
      (Quiescent config ∧ config.shared.tuner.udpPushActive = true) ∧ TargetTracksPush config := by
  obtain ⟨config, reachable, running⟩ := machine.reachable_of_run orderlyPushes
    (start oneStation) runningPush
    (fun config => Quiescent config ∧ config.shared.tuner.udpPushActive = true)
    (by decide +kernel)
  exact ⟨config, reachable, running, target_tracks_push reachable⟩

/-- A selected channel, and a `target` SET with a host name instead of an
address: the push thread gives up at once. -/
def failingPush : Schedule :=
  .arrive (.set (.vchannelSet ⟨2, 1⟩)) :: steps 0 9 ++
    .arrive (.set (.targetSet "recorder:5000".toList)) :: steps 2 6 ++ steps 3 2

theorem failed_push_keeps_target :
    ∃ config, machine.Reachable Guard.all (start oneStation) config ∧
      ¬ TargetTracksPush config := by
  obtain ⟨config, reachable, quiescent, inactive, stale⟩ := machine.reachable_of_run Guard.all
    (start oneStation) failingPush
    (fun config => Quiescent config ∧ config.shared.tuner.udpPushActive = false ∧
      config.shared.tuner.target ≠ noneText) (by decide +kernel)
  exact ⟨config, reachable, fun tracks => stale (tracks.idle quiescent inactive)⟩

end HdhrEmu
