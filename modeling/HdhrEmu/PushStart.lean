import HdhrEmu.StreamPids
import HdhrEmu.TunerClaim
import HdhrEmu.UdpTarget

/-!
# Starting a push, and starting it again

`udp_push_start` derives a channel and a program from the selection, and the
push thread then binds that channel, which becomes the selection the next
start derives from.  The second start finds what the first one opened, except
when the push was derived from a frequency alone, or from a program that only
became explicit through the bind.
-/

namespace HdhrEmu

/-- Where `udp_push_start` takes its channel from. -/
inductive PushSource
  | resolved (key : ChannelKey)
  | synthetic (tuning : Tuning)
  | siblings (freq : UInt32)
  | nothing
  deriving DecidableEq, Repr

/-- The channel built for a frequency that has no entry in the database. -/
def synthChannel (tuning : Tuning) : DvbChannel :=
  { DvbChannel.zero with frequencyHz := tuning.freq, delivery := tuning.delivery }

/-- `struct push_ctx`.  Bookkeeping: `id` is the number of the push. -/
structure PushCtx where
  channel : DvbChannel
  programOverride : Int
  pidFilter : CStr
  destIp : CStr
  destPort : Int
  generation : UInt32
  id : Nat
  deriving DecidableEq, Repr

namespace Tuner

/-- The branch that `udp_push_start` takes. -/
def pushSource (t : Tuner) : PushSource :=
  if t.vchResolved then .resolved ⟨t.vchMajor, t.vchMinor⟩
  else if t.tunedFrequencyHz ≠ 0 ∧ t.program ≤ 0 then .synthetic t.tuning
  else if t.tunedFrequencyHz ≠ 0 then .siblings t.tunedFrequencyHz
  else .nothing

/-- The last attempt was at this frequency, and it locked. -/
def lockedOn (t : Tuner) (freq : UInt32) : Bool :=
  t.lastAttemptFreq == freq && t.lastAttemptLocked

/-- The channel and the program of a push, when nothing else runs. -/
def pushChannel (t : Tuner) (db : ChannelDb) : Option (DvbChannel × Int) :=
  match t.pushSource with
  | .resolved key => (db.find? key).map (·, t.program)
  | .synthetic tuning => if t.lockedOn tuning.freq then some (synthChannel tuning, 0) else none
  | .siblings freq => (db.onFreq freq).head?.map (·, t.program)
  | .nothing => none

/-- The filter text in a push context; the buffers have the same size. -/
def pushPidFilter (t : Tuner) : CStr :=
  truncate 256 t.filterOverride

/-- The context of a push; its generation is the one the start increments to. -/
def pushCtx (t : Tuner) (channel : DvbChannel) (programOverride : Int) (target : UdpTarget) :
    PushCtx where
  channel := channel
  programOverride := programOverride
  pidFilter := t.pushPidFilter
  destIp := target.ip
  destPort := target.port
  generation := t.udpPushGeneration + 1
  id := t.pushCount + 1

end Tuner

/-- Where a push sends to. -/
def PushCtx.target (ctx : PushCtx) : UdpTarget :=
  ⟨ctx.destIp, ctx.destPort⟩

/-- The critical sections that run between two `target` SETs of the same
destination, the bind of the push apart. -/
inductive PushCycleOp
  | udpPushStop
  | udpPushCreate (target : UdpTarget) (now : Nat)
  | setTarget (value : CStr)
  | claimed
  | setStream (stream : Option DvbStream)
  | releaseClear
  | detachHold
  | installHold (fd : Fd) (thread : Nat) (started : Bool)
  | stopHeldStats
  | heldStatsJoined
  | publishHeldStats (reading : Reading)
  | udpPushDone (generation : UInt32)

def PushCycleOp.apply (t : Tuner) : PushCycleOp → Tuner
  | .udpPushStop => t.udpPushStop
  | .udpPushCreate target now => t.udpPushCreate target now true
  | .setTarget value => t.setTarget value
  | .claimed => t.claimed
  | .setStream stream => t.tunerSetStream stream
  | .releaseClear => t.releaseClear
  | .detachHold => t.detachHold
  | .installHold fd thread started => t.installHold fd thread started
  | .stopHeldStats => t.stopHeldStats
  | .heldStatsJoined => t.heldStatsJoined
  | .publishHeldStats reading => t.publishHeldStats reading
  | .udpPushDone generation => t.udpPushDone generation

/-- The state after a push that was started, bound `channel` and ended. -/
def pushCycle (t : Tuner) (before after : List PushCycleOp) (channel : DvbChannel)
    (programOverride : Int) : Tuner :=
  after.foldl PushCycleOp.apply
    ((before.foldl PushCycleOp.apply t).tunerBindChannel channel programOverride)

theorem PushCycleOp.apply_selection (t : Tuner) (op : PushCycleOp) :
    (op.apply t).toSelection = t.toSelection := by
  cases op with
  | udpPushStop =>
      simp only [apply, Tuner.udpPushStop]
      split <;> rfl
  | udpPushDone generation =>
      simp only [apply, Tuner.udpPushDone]
      split <;> rfl
  | _ => rfl

/-- Nothing but the bind writes the selection. -/
theorem foldl_apply_selection (ops : List PushCycleOp) (t : Tuner) :
    (ops.foldl PushCycleOp.apply t).toSelection = t.toSelection := by
  induction ops generalizing t with
  | nil => rfl
  | cons op ops ih => rw [List.foldl_cons, ih, op.apply_selection]

/-- A later start sees the channel that was bound. -/
theorem pushCycle_selection (t : Tuner) (before after : List PushCycleOp) (channel : DvbChannel)
    (programOverride : Int) :
    (pushCycle t before after channel programOverride).toSelection =
      (t.tunerBindChannel channel programOverride).toSelection := by
  have kept := foldl_apply_selection before t
  rw [pushCycle, foldl_apply_selection]
  simp only [Tuner.tunerBindChannel, kept]

/-- A start from `t` is accepted, and its push opens the frequency, the
delivery system and the set of PIDs that the push before opened. -/
def Tuner.RepeatsPush (t : Tuner) (db : ChannelDb) (channel : DvbChannel)
    (pids : List UInt16) : Prop :=
  ∃ next program, t.pushChannel db = some (next, program) ∧
    next.frequencyHz = channel.frequencyHz ∧ next.delivery = channel.delivery ∧
    ∃ opened, dvbStreamPids db next program t.pushPidFilter = some opened ∧
      ∀ pid, pid ∈ opened ↔ pid ∈ pids

/-- What has to be true of the state before the first start. -/
def Tuner.PushSurvives (t : Tuner) (db : ChannelDb) : Prop :=
  match t.pushSource with
  | .resolved key =>
      (explicitFilter? t.pushPidFilter).isSome ∨ t.program ≠ dvbProgramDefault ∨
        (db.deref key).programNumber ≠ 0
  | .synthetic tuning =>
      ∃ channel, db.find? ⟨0, 0⟩ = some channel ∧ channel.frequencyHz = tuning.freq ∧
        channel.delivery = tuning.delivery
  | .siblings _ => True
  | .nothing => False

section Cycle

variable {t : Tuner} {db : ChannelDb} {channel : DvbChannel} {program : Int}

/-- The second start looks up the key of the channel that was bound. -/
theorem pushChannel_pushCycle (before after : List PushCycleOp) :
    (pushCycle t before after channel program).pushChannel db =
      (db.find? channel.key).map (·, Tuner.boundProgram channel program) := by
  have selection := pushCycle_selection t before after channel program
  simp only [Tuner.tunerBindChannel] at selection
  simp [Tuner.pushChannel, Tuner.pushSource, selection, DvbChannel.key]

theorem pushPidFilter_pushCycle (before after : List PushCycleOp) :
    (pushCycle t before after channel program).pushPidFilter = t.pushPidFilter := by
  have selection := pushCycle_selection t before after channel program
  simp only [Tuner.tunerBindChannel] at selection
  simp [Tuner.pushPidFilter, selection]

/-- The program that a bind makes explicit selects the same PIDs, unless it is zero. -/
theorem dvbStreamPids_default (pidFilter : CStr) (nonzero : channel.programNumber ≠ 0) :
    dvbStreamPids db channel channel.programNumber.toNat pidFilter =
      dvbStreamPids db channel dvbProgramDefault pidFilter := by
  have positive : channel.programNumber.toNat ≠ 0 := fun zero =>
    nonzero (UInt16.toNat_inj.mp zero)
  simp [dvbStreamPids, programTarget, dvbProgramDefault, positive]

/-- The same channel and the same PIDs are a repetition. -/
theorem repeatsPush_of_same {before after : List PushCycleOp} {next : DvbChannel}
    {pids : List UInt16} (found : db.find? channel.key = some next)
    (frequency : next.frequencyHz = channel.frequencyHz)
    (delivery : next.delivery = channel.delivery)
    (same : dvbStreamPids db next (Tuner.boundProgram channel program) t.pushPidFilter =
      some pids) :
    (pushCycle t before after channel program).RepeatsPush db channel pids := by
  refine ⟨next, Tuner.boundProgram channel program, ?_, frequency, delivery, pids, ?_,
    fun _ => Iff.rfl⟩
  · rw [pushChannel_pushCycle, found, Option.map_some]
  · rw [pushPidFilter_pushCycle, same]

/-- A push of a channel with a resolved number. -/
theorem resolved_cycle_iff {before after : List PushCycleOp} {pids : List UInt16}
    (found : db.find? channel.key = some channel)
    (opened : dvbStreamPids db channel program t.pushPidFilter = some pids) :
    (pushCycle t before after channel program).RepeatsPush db channel pids ↔
      (explicitFilter? t.pushPidFilter).isSome ∨ program ≠ dvbProgramDefault ∨
        channel.programNumber ≠ 0 := by
  constructor
  · rintro ⟨next, program', derived, -, -, opened', openedNext, same⟩
    by_contra none_of
    simp only [not_or, Option.not_isSome_iff_eq_none, ne_eq, not_not] at none_of
    obtain ⟨noFilter, rfl, zero⟩ := none_of
    rw [pushChannel_pushCycle, found] at derived
    cases derived
    -- The program became an explicit zero, which asks for the full mux.
    have toZero : Tuner.boundProgram channel dvbProgramDefault = 0 := by
      rw [Tuner.boundProgram, if_pos rfl, zero]
      rfl
    rw [pushPidFilter_pushCycle, toZero] at openedNext
    have full : opened' = [fullMuxPid] := by
      have := openedNext.symm.trans (dvbStreamPids_full_mux noFilter)
      simpa using this
    have pat := (same 0).mpr (pat_mem_of_program noFilter (by decide) opened)
    rw [full] at pat
    revert pat
    decide
  · intro survives
    refine repeatsPush_of_same found rfl rfl ?_
    unfold Tuner.boundProgram
    split
    · rename_i isDefault
      rcases survives with filtered | explicit | nonzero
      · rw [← opened]
        exact dvbStreamPids_of_filter filtered _ _ _ _
      · exact absurd isDefault explicit
      · rw [dvbStreamPids_default _ nonzero, ← isDefault, opened]
    · exact opened

/-- A push of a channel that was made up for a frequency. -/
theorem synthetic_cycle_iff {before after : List PushCycleOp} {pids : List UInt16}
    {tuning : Tuning}
    (opened : dvbStreamPids db (synthChannel tuning) 0 t.pushPidFilter = some pids) :
    (pushCycle t before after (synthChannel tuning) 0).RepeatsPush db (synthChannel tuning) pids ↔
      ∃ channel, db.find? ⟨0, 0⟩ = some channel ∧ channel.frequencyHz = tuning.freq ∧
        channel.delivery = tuning.delivery := by
  constructor
  · rintro ⟨next, program', derived, frequency, delivery, -⟩
    rw [pushChannel_pushCycle] at derived
    obtain ⟨_, looked, paired⟩ := Option.map_eq_some_iff.mp derived
    cases paired
    exact ⟨next, looked, frequency, delivery⟩
  · rintro ⟨next, found, frequency, delivery⟩
    refine repeatsPush_of_same found frequency delivery ?_
    rw [Tuner.boundProgram, if_neg (by decide), ← opened]
    exact dvbStreamPids_program_zero _ _ _

end Cycle

/-- After a push that was derived from `t` has ended, the same destination is
accepted again with the same stream exactly in the states `PushSurvives` describes. -/
theorem push_cycle_repeats_iff (t : Tuner) (db : ChannelDb) (before after : List PushCycleOp)
    (channel : DvbChannel) (program : Int) (pids : List UInt16)
    (accepted : t.pushChannel db = some (channel, program))
    (opened : dvbStreamPids db channel program t.pushPidFilter = some pids) :
    (pushCycle t before after channel program).RepeatsPush db channel pids ↔
      t.PushSurvives db := by
  unfold Tuner.pushChannel at accepted
  unfold Tuner.PushSurvives
  cases source : t.pushSource with
  | resolved key =>
      simp only [source] at accepted
      obtain ⟨_, found, paired⟩ := Option.map_eq_some_iff.mp accepted
      cases paired
      have key_eq := ChannelDb.find?_key found
      have deref : db.deref key = channel := by simp [ChannelDb.deref, found]
      simpa only [deref] using resolved_cycle_iff (key_eq ▸ found) opened
  | synthetic tuning =>
      simp only [source] at accepted
      split at accepted
      · cases accepted
        exact synthetic_cycle_iff opened
      · cases accepted
  | siblings freq =>
      simp only [source] at accepted
      obtain ⟨_, head, paired⟩ := Option.map_eq_some_iff.mp accepted
      cases paired
      have member : channel ∈ db.channels :=
        (List.mem_filter.mp (List.mem_of_mem_head? head)).1
      have found : db.find? channel.key = some channel :=
        ChannelDb.find?_eq_some_iff.mpr ⟨member, rfl⟩
      have explicit : t.program ≠ dvbProgramDefault := by
        intro isDefault
        simp only [Tuner.pushSource, isDefault] at source
        split at source
        · cases source
        · split at source
          · cases source
          · simp_all [dvbProgramDefault]
      exact iff_of_true ((resolved_cycle_iff found opened).mpr (.inr (.inl explicit))) trivial
  | nothing =>
      simp only [source] at accepted
      cases accepted

/-- The push of a database channel after a `vchannel` SET. -/
theorem push_cycle_repeats_iff_vchannel :
    let channel : DvbChannel :=
      { DvbChannel.zero with
        major := 2, minor := 1, frequencyHz := 57000000, programNumber := 3,
        pmtPid := 0x30, pcrPid := 0x31, videoPid := 0x31, audioPid := 0x34 }
    let db := ChannelDb.empty.add channel
    let t := Tuner.init.tunerBindChannel channel dvbProgramDefault
    (pushCycle t [] [] channel 3).RepeatsPush db channel [0, 0x30, 0x31, 0x34] ↔
      t.PushSurvives db :=
  push_cycle_repeats_iff _ _ [] [] _ 3 _ (by decide) (by decide)

/-- After a raw `channel` SET that locked, a push is accepted and opens the
full mux; once it has ended, the same SET is refused. -/
theorem raw_push_refused_again :
    let t := ((Tuner.init.channelSelect .atscVsb 177000000).recordAttempt 177000000 true 1)
      |>.scanWorkerDone
    let channel := synthChannel ⟨177000000, .atscVsb⟩
    let ended := pushCycle t [.udpPushStop, .udpPushCreate ⟨"10.0.0.2".toList, 5000⟩ 0, .claimed]
      [.setStream (some ⟨0, 7, true, ⟨177000000, .atscVsb⟩⟩), .setTarget "10.0.0.2:5000".toList,
        .udpPushStop, .setTarget noneText, .setStream none, .releaseClear, .udpPushDone 1,
        .setTarget noneText] channel 0
    t.pushChannel ChannelDb.empty = some (channel, 0) ∧
      dvbStreamPids ChannelDb.empty channel 0 t.pushPidFilter = some [fullMuxPid] ∧
      ended.pushChannel ChannelDb.empty = none ∧
      ¬ ended.RepeatsPush ChannelDb.empty channel [fullMuxPid] := by
  refine ⟨by decide, by decide, by decide, ?_⟩
  rintro ⟨next, program, derived, -⟩
  revert derived
  rw [pushChannel_pushCycle]
  simp [ChannelDb.find?, ChannelDb.empty]

end HdhrEmu
